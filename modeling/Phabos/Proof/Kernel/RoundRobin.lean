import Mathlib.Data.List.TakeWhile
import Phabos.Library.Run
import Phabos.Proof.Kernel.Scheduling

namespace Phabos.Sched
open Library List Option Function

/-- The tasks that have their turn before a task of a queue: those ahead of it, but for the running task at the
head, which has had its turn. -/
def turnsBefore (queue : List ℕ) (current x : ℕ) : List ℕ :=
  (if queue.head? = some current then queue.tail else queue).takeWhile (· ≠ x)

/-- The turns before a task of the round robin queue of a priority. -/
def Turns.tasksAhead (s : Turns) (priority x : ℕ) : List ℕ :=
  turnsBefore (s.scheduler.queue (.rr priority)) s.scheduler.current x

/-- No task of the fifo policy and no task of a higher priority is runnable at a call of `schedule`, and the
watched task stays enqueued. -/
def Turns.Watched (priority x : ℕ) (s : Turns) : Action → Prop
  | .schedule => (∀ i < s.scheduler.config.numFifoPriorities, s.scheduler.queue (.fifo i) = []) ∧
      ∀ i < s.scheduler.config.numRrPriorities, priority < i → s.scheduler.queue (.rr i) = []
  | .block => s.scheduler.current ≠ x
  | _ => True

/-- When `schedule` rotates a queue of several tasks, the head of the queue is the running task. -/
def Turns.Rotates (priority : ℕ) (s : Turns) : Action → Prop
  | .schedule => s.scheduler.isLocked = 0 → (s.scheduler.queue (.rr priority)).head? = some s.scheduler.current ∨
      (s.scheduler.queue (.rr priority)).length ≤ 1
  | _ => True

/-- No task is enqueued while the watched task runs. -/
def Turns.Calm (x : ℕ) (s : Turns) : Action → Prop
  | .wake _ => s.scheduler.current ≠ x
  | _ => True

/-- Queued tasks are running ones, each once on the queue of a priority in the range. -/
structure Scheduler.Queued (s : Scheduler) : Prop where
  nodup : ∀ queue, (s.queue queue).Nodup
  running : ∀ queue, ∀ t ∈ s.queue queue, (s.task t).running = true
  inRange : ∀ i, s.queue (.rr i) ≠ [] → i < s.config.numRrPriorities
  spared : s.killTask = false

section Queued
variable {s next : Scheduler} {t : ℕ}

theorem Scheduler.Queued.schedule (queued : s.Queued) (scheduled : schedule s = some next) : next.Queued := by
  rcases schedule_cases queued.spared scheduled with rfl | ⟨t, rfl⟩
  · exact queued
  · obtain ⟨task, config, kill⟩ := schedRrPickTask_fields s
    refine ⟨fun queue => ?_, fun queue t there => ?_, fun i some => ?_, kill.trans queued.spared⟩
    · exact (schedRrPickTask_queue s queue).nodup_iff.mpr (queued.nodup queue)
    · change ((schedRrPickTask s).1.task t).running = true
      rw [task]
      exact queued.running queue t ((schedRrPickTask_queue s queue).mem_iff.mp there)
    · change i < (schedRrPickTask s).1.config.numRrPriorities
      rw [config]
      refine queued.inRange i fun empty => some ?_
      have same := schedRrPickTask_queue s (.rr i)
      rw [empty] at same
      exact same.eq_nil

theorem Scheduler.Queued.remove (queued : s.Queued) (t : ℕ) : (schedRmFromRunqueue s t).Queued := by
  unfold schedRmFromRunqueue
  split
  · exact queued
  · refine ⟨fun queue => (queued.nodup queue).erase t, fun queue u there => ?_, fun i some => ?_, queued.spared⟩
    · obtain ⟨differs, before⟩ := (queued.nodup queue).mem_erase_iff.mp there
      change (update s.task t _ u).running = true
      rw [update_of_ne differs]
      exact queued.running queue u before
    · refine queued.inRange i fun empty => some ?_
      change (s.queue (.rr i)).erase t = []
      rw [empty]
      rfl

theorem Scheduler.Queued.add (queued : s.Queued) (new : (s.task t).running = false) :
    (schedAddToRunqueue s t).Queued := by
  have absent (queue) : t ∉ s.queue queue := by
    intro there
    rw [queued.running queue t there] at new
    cases new
  obtain ⟨changed, ⟨task, runs, tasks⟩, config, kill, -⟩ := schedAddToRunqueue_cases s t
  have members (queue) (u) (there : u ∈ (schedAddToRunqueue s t).queue queue) : u = t ∨ u ∈ s.queue queue := by
    rcases changed queue with same | ⟨added, -⟩
    · exact .inr (same ▸ there)
    · rw [added] at there
      rcases mem_append.mp there with before | last
      · exact .inr before
      · exact .inl (mem_singleton.mp last)
  refine ⟨fun queue => ?_, fun queue u there => ?_, fun i some => ?_, kill.trans queued.spared⟩
  · rcases changed queue with same | ⟨added, -⟩
    · rw [same]
      exact queued.nodup queue
    · rw [added, ← concat_eq_append]
      exact List.Nodup.concat (absent queue) (queued.nodup queue)
  · rw [tasks]
    by_cases same : u = t
    · rw [same, update_self]
      exact runs
    · rw [update_of_ne same]
      exact queued.running queue u ((members queue u there).resolve_left same)
  · rw [config]
    rcases changed (.rr i) with same | ⟨-, fits⟩
    · exact queued.inRange i (same ▸ some)
    · exact fits i rfl

/-- A step keeps every task in at most one runqueue. -/
theorem Scheduler.Queued.step {s next : Turns} {action : Action} (queued : s.scheduler.Queued)
    (stepped : step s action = some next) : next.scheduler.Queued := by
  cases action with
  | schedule =>
    obtain ⟨scheduler, scheduled, rfl⟩ := map_eq_some_iff.mp stepped
    exact queued.schedule scheduled
  | block =>
    obtain rfl := Option.some.inj stepped
    exact queued.remove _
  | wake t =>
    simp only [Sched.step] at stepped
    split at stepped
    · cases stepped
    · rename_i new
      obtain rfl := Option.some.inj stepped
      exact queued.add (Bool.not_eq_true _ ▸ new)
  | lock | unlock =>
    obtain rfl := Option.some.inj stepped
    exact { queued with }

theorem Scheduler.Queued.init (config : Config) (priority : ℕ → ℤ) (policy : ℕ → Option Policy) :
    (schedInit config priority policy).Queued :=
  ⟨fun _ => nodup_nil, fun _ _ there => absurd there not_mem_nil, fun _ some => absurd rfl some, rfl⟩

end Queued

section Turns
variable {queue rest : List ℕ} {current first x t : ℕ}

theorem takeWhile_append_of_mem (there : x ∈ queue) (later : List ℕ) :
    (queue ++ later).takeWhile (· ≠ x) = queue.takeWhile (· ≠ x) := by
  induction queue with
  | nil => cases there
  | cons first rest ih =>
    rw [cons_append, takeWhile_cons, takeWhile_cons]
    by_cases same : first = x
    · simp [same]
    · rw [ih ((mem_cons.mp there).resolve_left (Ne.symm same))]

theorem takeWhile_eq_self_of_not_mem (absent : x ∉ queue) : queue.takeWhile (· ≠ x) = queue := by
  rw [takeWhile_eq_self_iff]
  intro t there
  exact decide_eq_true fun same => absent (same ▸ there)

theorem turnsBefore_cons (first : ℕ) (rest : List ℕ) (current x : ℕ) :
    turnsBefore (first :: rest) current x =
      (if first = current then rest else first :: rest).takeWhile (· ≠ x) := by
  unfold turnsBefore
  by_cases same : first = current
  · have head : (first :: rest).head? = some current := congrArg some same
    rw [if_pos same, if_pos head]
    rfl
  · have head : (first :: rest).head? ≠ some current := fun head => same (Option.some.inj head)
    rw [if_neg same, if_neg head]

theorem turnsBefore_rotate (distinct : queue.Nodup) (there : x ∈ queue)
    (rotates : queue.head? = some current ∨ queue.length ≤ 1) :
    ∃ picked, (listRotateAnticlockwise queue).head? = some picked ∧
      (turnsBefore queue current x = [] ∧ picked = x ∨
        picked ≠ x ∧ turnsBefore queue current x =
          picked :: turnsBefore (listRotateAnticlockwise queue) picked x) := by
  cases queue with
  | nil => cases there
  | cons first rest =>
    cases rest with
    | nil =>
      obtain rfl := mem_singleton.mp there
      refine ⟨x, rfl, .inl ⟨?_, rfl⟩⟩
      rw [turnsBefore_cons]
      split
      · rfl
      · simp
    | cons second rest =>
      have same : first = current := by
        rcases rotates with head | short
        · exact Option.some.inj head
        · exact absurd short (by simp)
      subst same
      refine ⟨second, rfl, ?_⟩
      simp only [listRotateAnticlockwise, cons_append, turnsBefore_cons, ↓reduceIte]
      by_cases next : second = x
      · exact .inl ⟨by simp [next], next⟩
      · refine .inr ⟨next, ?_⟩
        rw [takeWhile_cons, if_pos (decide_eq_true next)]
        congr 1
        rcases mem_cons.mp there with rfl | behind
        · have absent : x ∉ rest := by
            intro again
            exact (nodup_cons.mp distinct).1 (mem_cons_of_mem _ again)
          rw [takeWhile_eq_self_of_not_mem absent, takeWhile_append_of_pos]
          · simp
          · intro t early
            exact decide_eq_true fun same => absent (same ▸ early)
        · have later := (mem_cons.mp behind).resolve_left (Ne.symm next)
          exact (takeWhile_append_of_mem later _).symm

theorem turnsBefore_erase (distinct : queue.Nodup) (differs : current ≠ x) :
    (turnsBefore (queue.erase current) current x).Sublist (turnsBefore queue current x) := by
  have shorter : ((queue.erase current).takeWhile (· ≠ x)).Sublist (queue.takeWhile (· ≠ x)) := by
    induction queue with
    | nil => exact .refl _
    | cons first rest ih =>
      by_cases same : first = current
      · subst same
        rw [erase_cons_head, takeWhile_cons, if_pos (decide_eq_true differs)]
        exact sublist_cons_self _ _
      · rw [erase_cons_tail (by simpa using same), takeWhile_cons, takeWhile_cons]
        split
        · exact (ih (nodup_cons.mp distinct).2).cons_cons _
        · exact .refl _
  have gone : (queue.erase current).head? ≠ some current := by
    intro head
    exact (distinct.mem_erase_iff.mp (mem_of_head? head)).1 rfl
  unfold turnsBefore
  rw [if_neg gone]
  split
  · rename_i head
    cases queue with
    | nil => cases head
    | cons first rest =>
      obtain rfl := Option.some.inj head
      rw [erase_cons_head]
      exact .refl _
  · exact shorter

theorem turnsBefore_append (current t : ℕ) (there : x ∈ queue) :
    turnsBefore (queue ++ [t]) current x = turnsBefore queue current x ∨
      current = x ∧ queue.head? = some x := by
  cases queue with
  | nil => cases there
  | cons first rest =>
    rw [cons_append, turnsBefore_cons, turnsBefore_cons]
    by_cases head : first = current
    · rw [if_pos head, if_pos head]
      by_cases runs : first = x
      · exact .inr ⟨head.symm.trans runs, congrArg some runs⟩
      · have later := (mem_cons.mp there).resolve_left (Ne.symm runs)
        exact .inl (takeWhile_append_of_mem later _)
    · rw [if_neg head, if_neg head, ← cons_append]
      exact .inl (takeWhile_append_of_mem there _)

end Turns

section Fairness
variable {s next : Turns} {action : Action} {level x : ℕ} {start : List ℕ}

theorem schedule_rotates {s next : Scheduler} (queued : s.Queued) (there : x ∈ s.queue (.rr level))
    (unlocked : s.isLocked = 0) (fifo : ∀ i < s.config.numFifoPriorities, s.queue (.fifo i) = [])
    (higher : ∀ i < s.config.numRrPriorities, level < i → s.queue (.rr i) = []) (scheduled : schedule s = some next) :
    next.queue (.rr level) = listRotateAnticlockwise (s.queue (.rr level)) ∧
      (listRotateAnticlockwise (s.queue (.rr level))).head? = some next.current := by
  have some : s.queue (.rr level) ≠ [] := ne_nil_of_mem there
  have found := highest_eq_some (fun i => s.queue (.rr i)) (queued.inRange level some) some higher
  have none : schedFifoPickTask s = none := by
    unfold schedFifoPickTask
    rw [highest_eq_none fifo]
    rfl
  have rotated : schedRrPickTask s =
      ({ s with queue := update s.queue (.rr level) (listRotateAnticlockwise (s.queue (.rr level))) },
        (listRotateAnticlockwise (s.queue (.rr level))).head?) := by
    unfold schedRrPickTask
    rw [found]
  obtain ⟨t, head⟩ : ∃ t, (listRotateAnticlockwise (s.queue (.rr level))).head? = .some t := by
    cases queue : s.queue (.rr level) with
    | nil => exact absurd queue some
    | cons first rest =>
      cases rest with
      | nil => exact ⟨first, rfl⟩
      | cons second rest => exact ⟨second, rfl⟩
  unfold schedule at scheduled
  rw [if_neg (not_not.mpr unlocked), none, rotated, head] at scheduled
  simp only [prefer, switchTo, queued.spared, Bool.false_eq_true, ↓reduceIte, Option.some.injEq] at scheduled
  subst scheduled
  exact ⟨update_self _ _ _, head⟩

/-- The tasks picked so far come each once before the watched task, and none of them has another turn before it. -/
structure Turns.Waits (start : List ℕ) (level x : ℕ) (s : Turns) (picks : List ℕ) : Prop where
  history : s.picks = start ++ picks
  once : (picks.takeWhile (· ≠ x)).Nodup
  fresh : x ∉ picks → ∀ t ∈ picks, t ∉ s.tasksAhead level x
  first : x ∉ picks → s.scheduler.current = x → (s.scheduler.queue (.rr level)).head? = some x → picks = []

/-- The picks before the watched task are within a bound, those still to come included. -/
def Turns.Within (level x bound : ℕ) (s : Turns) (picks : List ℕ) : Prop :=
  (picks.takeWhile (· ≠ x)).length + (if x ∈ picks then 0 else (s.tasksAhead level x).length) ≤ bound

/-- A step keeps the task in its queue, and the tasks ahead of it lose only the one that has a
turn. -/
theorem step_turns (queued : s.scheduler.Queued) (there : x ∈ s.scheduler.queue (.rr level))
    (watched : s.Watched level x action) (rotates : s.Rotates level action) (stepped : step s action = some next) :
    x ∈ next.scheduler.queue (.rr level) ∧
      ((next.picks = s.picks ∧ (next.tasksAhead level x).Sublist (s.tasksAhead level x) ∧
          (next.scheduler.current = x → (next.scheduler.queue (.rr level)).head? = some x →
            s.scheduler.current = x ∧ (s.scheduler.queue (.rr level)).head? = some x)) ∨
        (next.picks = s.picks ∧ (∃ t, action = .wake t) ∧ s.scheduler.current = x ∧
          (s.scheduler.queue (.rr level)).head? = some x) ∨
        ∃ picked, next.picks = s.picks ++ [picked] ∧
          (s.tasksAhead level x = [] ∧ picked = x ∨
            picked ≠ x ∧ next.scheduler.current = picked ∧
              s.tasksAhead level x = picked :: next.tasksAhead level x)) := by
  cases action with
  | schedule =>
    obtain ⟨scheduler, scheduled, rfl⟩ := map_eq_some_iff.mp stepped
    by_cases unlocked : s.scheduler.isLocked = 0
    · obtain ⟨queue, head⟩ := schedule_rotates queued there unlocked watched.1 watched.2 scheduled
      have member : x ∈ scheduler.queue (.rr level) := by
        rw [queue]
        exact (listRotateAnticlockwise_perm _).mem_iff.mpr there
      obtain ⟨picked, same, turn⟩ := turnsBefore_rotate (queued.nodup _) there (rotates unlocked)
      obtain rfl := Option.some.inj (same.symm.trans head)
      refine ⟨member, .inr (.inr ⟨scheduler.current, if_neg (not_not.mpr unlocked), ?_⟩)⟩
      rcases turn with last | ⟨differs, turn⟩
      · exact .inl last
      · refine .inr ⟨differs, rfl, turn.trans ?_⟩
        unfold Turns.tasksAhead
        rw [queue]
    · unfold schedule at scheduled
      rw [if_pos unlocked] at scheduled
      obtain rfl := Option.some.inj scheduled
      exact ⟨there, .inl ⟨if_pos unlocked, .refl _, fun runs head => ⟨runs, head⟩⟩⟩
  | block =>
    obtain rfl := Option.some.inj stepped
    have differs : s.scheduler.current ≠ x := watched
    unfold schedRmFromRunqueue
    split
    · exact ⟨there, .inl ⟨rfl, .refl _, fun runs => absurd runs differs⟩⟩
    · have member : x ∈ (s.scheduler.queue (.rr level)).erase s.scheduler.current :=
        (mem_erase_of_ne differs.symm).mpr there
      exact ⟨member, .inl ⟨rfl, turnsBefore_erase (queued.nodup _) differs, fun runs => absurd runs differs⟩⟩
  | wake t =>
    simp only [step] at stepped
    split at stepped
    · cases stepped
    obtain rfl := Option.some.inj stepped
    obtain ⟨changed, -, -, -, current⟩ := schedAddToRunqueue_cases s.scheduler t
    rcases changed (.rr level) with same | ⟨added, -⟩
    · rw [same]
      refine ⟨there, .inl ⟨rfl, ?_, ?_⟩⟩
      · unfold Turns.tasksAhead
        rw [same, current]
      · rw [current]
        exact fun runs head => ⟨runs, head⟩
    · rw [added]
      refine ⟨mem_append_left _ there, ?_⟩
      rcases turnsBefore_append s.scheduler.current t there with same | ⟨runs, head⟩
      · refine .inl ⟨rfl, ?_, fun runs head => ⟨current ▸ runs, ?_⟩⟩
        · unfold Turns.tasksAhead
          rw [added, current, same]
        · rw [List.head?_append_of_ne_nil _ (ne_nil_of_mem there)] at head
          exact head
      · exact .inr (.inl ⟨rfl, ⟨t, rfl⟩, runs, head⟩)
  | lock | unlock =>
    obtain rfl := Option.some.inj stepped
    exact ⟨there, .inl ⟨rfl, .refl _, fun runs head => ⟨runs, head⟩⟩⟩

theorem turnsBefore_nodup {queue : List ℕ} (distinct : queue.Nodup) (current x : ℕ) :
    (turnsBefore queue current x).Nodup := by
  unfold turnsBefore
  split
  · exact distinct.sublist ((takeWhile_sublist _).trans (tail_sublist _))
  · exact distinct.sublist (takeWhile_sublist _)

variable {picks : List ℕ}

theorem Turns.Waits.after (bound : ℕ) {picked : ℕ} (waits : s.Waits start level x picks)
    (mem : x ∈ picks) (more : next.picks = s.picks ++ [picked]) :
    next.Waits start level x (picks ++ [picked]) ∧
      (s.Within level x bound picks → next.Within level x bound (picks ++ [picked])) := by
  have still : x ∈ picks ++ [picked] := mem_append_left _ mem
  have same := takeWhile_append_of_mem mem [picked]
  refine ⟨⟨?_, ?_, fun absent => absurd still absent, fun absent => absurd still absent⟩, fun within => ?_⟩
  · rw [more, waits.history, append_assoc]
  · rw [same]
    exact waits.once
  · unfold Turns.Within at within ⊢
    rw [same, if_pos still]
    rw [if_pos mem] at within
    exact within

theorem Turns.Waits.reached (bound : ℕ) (waits : s.Waits start level x picks)
    (mem : x ∉ picks) (more : next.picks = s.picks ++ [x]) :
    next.Waits start level x (picks ++ [x]) ∧
      (s.Within level x bound picks → next.Within level x bound (picks ++ [x])) := by
  have whole := takeWhile_eq_self_of_not_mem mem
  have still : x ∈ picks ++ [x] := mem_append_right _ (mem_singleton.mpr rfl)
  have same : (picks ++ [x]).takeWhile (· ≠ x) = picks := by
    rw [takeWhile_append_of_pos]
    · simp
    · intro t early
      exact decide_eq_true fun equal => mem (equal ▸ early)
  refine ⟨⟨?_, ?_, fun absent => absurd still absent, fun absent => absurd still absent⟩, fun within => ?_⟩
  · rw [more, waits.history, append_assoc]
  · rw [same, ← whole]
    exact waits.once
  · unfold Turns.Within at within ⊢
    rw [same, if_pos still]
    rw [whole, if_neg mem] at within
    omega

theorem Turns.Waits.nearer (bound : ℕ) {picked : ℕ} (waits : s.Waits start level x picks)
    (queued : s.scheduler.Queued) (mem : x ∉ picks) (more : next.picks = s.picks ++ [picked]) (differs : picked ≠ x)
    (now : next.scheduler.current = picked) (turn : s.tasksAhead level x = picked :: next.tasksAhead level x) :
    next.Waits start level x (picks ++ [picked]) ∧
      (s.Within level x bound picks → next.Within level x bound (picks ++ [picked])) := by
  have whole := takeWhile_eq_self_of_not_mem mem
  have absent : x ∉ picks ++ [picked] := by
    intro there
    rcases mem_append.mp there with early | last
    · exact mem early
    · exact differs (mem_singleton.mp last).symm
  have same := takeWhile_eq_self_of_not_mem absent
  have distinct := turnsBefore_nodup (queued.nodup (.rr level)) s.scheduler.current x
  rw [show turnsBefore _ _ _ = picked :: next.tasksAhead level x from turn] at distinct
  have new : picked ∉ picks := by
    intro early
    refine waits.fresh mem picked early ?_
    rw [turn]
    exact mem_cons_self
  refine ⟨⟨?_, ?_, fun _ t early turns => ?_, fun _ runs => absurd (now.symm.trans runs) differs⟩, fun within => ?_⟩
  · rw [more, waits.history, append_assoc]
  · rw [same, ← concat_eq_append]
    have once := waits.once
    rw [whole] at once
    exact List.Nodup.concat new once
  · rcases mem_append.mp early with before | last
    · refine waits.fresh mem t before ?_
      rw [turn]
      exact mem_cons_of_mem _ turns
    · rw [mem_singleton.mp last] at turns
      exact (nodup_cons.mp distinct).1 turns
  · unfold Turns.Within at within ⊢
    rw [same, if_neg absent, length_append, length_singleton]
    rw [whole, if_neg mem, turn, length_cons] at within
    omega

/-- A step keeps the record of the turns before the task's own. -/
theorem Turns.Waits.step (bound : ℕ) (waits : s.Waits start level x picks) (queued : s.scheduler.Queued)
    (there : x ∈ s.scheduler.queue (.rr level)) (watched : s.Watched level x action)
    (rotates : s.Rotates level action) (stepped : step s action = some next) :
    ∃ later, next.Waits start level x later ∧ (s.Within level x bound picks → s.Calm x action →
      next.Within level x bound later) := by
  rcases (step_turns queued there watched rotates stepped).2 with
    ⟨same, fewer, runs⟩ | ⟨same, ⟨t, rfl⟩, runs, head⟩ | ⟨picked, more, turn⟩
  · refine ⟨picks, ⟨same.trans waits.history, waits.once, fun absent t early turn => ?_, fun absent now head => ?_⟩,
      fun within _ => ?_⟩
    · exact waits.fresh absent t early (fewer.subset turn)
    · exact waits.first absent (runs now head).1 (runs now head).2
    · have shorter := fewer.length_le
      unfold Turns.Within at within ⊢
      split at within
      · rename_i mem
        rw [if_pos mem]
        exact within
      · rename_i absent
        rw [if_neg absent]
        omega
  · refine ⟨picks, ⟨same.trans waits.history, waits.once, fun absent t early => ?_, fun absent _ _ => ?_⟩,
      fun _ calm => absurd runs calm⟩
    · rw [waits.first absent runs head] at early
      cases early
    · exact waits.first absent runs head
  · refine ⟨picks ++ [picked], ?_⟩
    by_cases mem : x ∈ picks
    · obtain ⟨later, within⟩ := waits.after bound mem more
      exact ⟨later, fun before _ => within before⟩
    rcases turn with ⟨-, rfl⟩ | ⟨differs, now, turn⟩
    · obtain ⟨later, within⟩ := waits.reached bound mem more
      exact ⟨later, fun before _ => within before⟩
    · obtain ⟨later, within⟩ := waits.nearer bound queued mem more differs now turn
      exact ⟨later, fun before _ => within before⟩

end Fairness

instance (level x : ℕ) (s : Turns) (action : Action) : Decidable (s.Watched level x action) :=
  match action with
  | .schedule => inferInstanceAs (Decidable ((∀ i < s.scheduler.config.numFifoPriorities,
      s.scheduler.queue (.fifo i) = []) ∧ ∀ i < s.scheduler.config.numRrPriorities, level < i →
        s.scheduler.queue (.rr i) = []))
  | .block => inferInstanceAs (Decidable (s.scheduler.current ≠ x))
  | .wake _ | .lock | .unlock => isTrue trivial

instance (level : ℕ) (s : Turns) (action : Action) : Decidable (s.Rotates level action) :=
  match action with
  | .schedule => inferInstanceAs (Decidable (s.scheduler.isLocked = 0 →
      (s.scheduler.queue (.rr level)).head? = some s.scheduler.current ∨
        (s.scheduler.queue (.rr level)).length ≤ 1))
  | .block | .wake _ | .lock | .unlock => isTrue trivial

/-- A task that stays enqueued is picked after as many picks as there are turns before it, each of another task,
when `schedule` rotates no task away that has not run. -/
theorem sched_rr_is_fair (config : Config) (priority : ℕ → ℤ) (policy : ℕ → Option Policy)
    (prior actions : List Action) (s₀ s : Turns) (level x : ℕ)
    (reached : run step ⟨schedInit config priority policy, []⟩ prior = some s₀)
    (enqueued : x ∈ s₀.scheduler.queue (.rr level)) (watched : Guarded step (Turns.Watched level x) s₀ actions)
    (rotates : Guarded step (Turns.Rotates level) s₀ actions) (ran : run step s₀ actions = some s) :
    ∃ picks, s.picks = s₀.picks ++ picks ∧ (picks.takeWhile (· ≠ x)).Nodup ∧
      (Guarded step (Turns.Calm x) s₀ actions →
        (picks.takeWhile (· ≠ x)).length ≤ (s₀.tasksAhead level x).length ∧
          ((s₀.tasksAhead level x).length < picks.length → x ∈ picks)) := by
  have queued := run_invariant (fun s => s.scheduler.Queued) (Scheduler.Queued.init _ _ _) reached fun queued =>
    queued.step
  have start : s₀.Waits s₀.picks level x [] :=
    ⟨(List.append_nil _).symm, List.nodup_nil, fun _ t early => absurd early List.not_mem_nil, fun _ _ _ => rfl⟩
  have guarded := watched.and rotates
  obtain ⟨-, -, picks, waits⟩ := run_invariant_of_guarded
    (fun s : Turns => s.scheduler.Queued ∧ x ∈ s.scheduler.queue (.rr level) ∧ ∃ picks, s.Waits s₀.picks level x picks)
    ⟨queued, enqueued, [], start⟩ guarded ran fun ⟨queued, there, picks, waits⟩ ⟨watched, rotates⟩ stepped => by
      obtain ⟨later, kept, -⟩ := waits.step 0 queued there watched rotates stepped
      exact ⟨queued.step stepped, (step_turns queued there watched rotates stepped).1, later, kept⟩
  refine ⟨picks, waits.history, waits.once, fun calm => ?_⟩
  have within : s₀.Within level x (s₀.tasksAhead level x).length [] := by
    simp [Turns.Within]
  obtain ⟨-, -, others, same, bounded⟩ := run_invariant_of_guarded
    (fun s : Turns => s.scheduler.Queued ∧ x ∈ s.scheduler.queue (.rr level) ∧
      ∃ picks, s.Waits s₀.picks level x picks ∧ s.Within level x (s₀.tasksAhead level x).length picks)
    ⟨queued, enqueued, [], start, within⟩ (guarded.and calm) ran
    fun ⟨queued, there, picks, waits, within⟩ ⟨⟨watched, rotates⟩, calm⟩ stepped => by
      obtain ⟨later, kept, bounded⟩ := waits.step (s₀.tasksAhead level x).length queued there watched rotates stepped
      exact ⟨queued.step stepped, (step_turns queued there watched rotates stepped).1, later, kept,
        bounded within calm⟩
  obtain rfl := List.append_cancel_left (waits.history.symm.trans same.history)
  have short : (picks.takeWhile (· ≠ x)).length ≤ (s₀.tasksAhead level x).length :=
    (Nat.le_add_right _ _).trans bounded
  refine ⟨short, fun long => ?_⟩
  by_contra absent
  rw [takeWhile_eq_self_of_not_mem absent] at short
  omega

/-- Three tasks take turns, and the third one has its turn after the second. -/
theorem sched_rr_is_fair_turns :
    ∃ s₀ s, run step ⟨schedInit ⟨32, 32, by decide⟩ (fun _ => 0) (fun _ => none), []⟩
        [.wake 1, .schedule, .wake 2, .wake 3] = some s₀ ∧
      run step s₀ [.schedule, .schedule, .schedule] = some s ∧ s₀.tasksAhead 0 3 = [2] ∧
      s.picks = [1, 2, 3, 1] ∧ ∃ picks, s.picks = s₀.picks ++ picks ∧ (picks.takeWhile (· ≠ 3)).Nodup ∧
        (Guarded step (Turns.Calm 3) s₀ [.schedule, .schedule, .schedule] →
          (picks.takeWhile (· ≠ 3)).length ≤ (s₀.tasksAhead 0 3).length ∧
            ((s₀.tasksAhead 0 3).length < picks.length → 3 ∈ picks)) :=
  ⟨_, _, rfl, rfl, by decide +kernel, by decide +kernel,
    sched_rr_is_fair ⟨32, 32, by decide⟩ (fun _ => 0) (fun _ => none) [.wake 1, .schedule, .wake 2, .wake 3]
      [.schedule, .schedule, .schedule] _ _ 0 3 rfl (by decide +kernel)
      (by decide +kernel)
      (by decide +kernel) rfl⟩

/-- Two tasks wake each other and block in turn, and the third task has no turn although it is the next one from
the start and stays enqueued. -/
theorem sched_rr_pick_task_starves :
    ∃ s₀ s, run step ⟨schedInit ⟨32, 32, by decide⟩ (fun _ => 0) (fun _ => none), []⟩
        [.wake 1, .schedule, .wake 2, .wake 3] = some s₀ ∧
      run step s₀ [.block, .schedule, .wake 1, .block, .schedule, .wake 3, .block, .schedule, .wake 1, .block,
        .schedule, .wake 3] = some s ∧
      Guarded step (Turns.Watched 0 2) s₀ [.block, .schedule, .wake 1, .block, .schedule, .wake 3, .block,
        .schedule, .wake 1, .block, .schedule, .wake 3] ∧
      s₀.scheduler.current = 1 ∧ s₀.scheduler.queue (.rr 0) = [1, 2, 3] ∧ s₀.tasksAhead 0 2 = [] ∧
      s.scheduler.current = 1 ∧ s.scheduler.queue (.rr 0) = [1, 2, 3] ∧ s.picks = s₀.picks ++ [3, 1, 3, 1] :=
  ⟨_, _, rfl, rfl, by decide +kernel,
    by decide +kernel, by decide +kernel, by decide +kernel, by decide +kernel, by decide +kernel, by decide +kernel⟩

end Phabos.Sched
