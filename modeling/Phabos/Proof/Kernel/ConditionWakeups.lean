import Phabos.Proof.Kernel.ConditionRecord

namespace Phabos.Tasks.Condition
open Library Sched Function List Option

variable {here : Stage}

section Exec
variable {cond : Object} {index : ℕ} {r next : Record} {stage : ℕ → Stage} {new : Stage} {op : Op} {rest : List Op} {t : ℕ}

theorem step_exec (ops : r.machine.ops r.machine.current = op :: rest) (stepped : r.step .exec = some next) :
    ∃ machine, perform r.machine rest op = some machine ∧ next = r.observe machine (op :: rest) := by
  obtain ⟨machine, performed, rfl⟩ := map_eq_some_iff.mp stepped
  unfold Tasks.step at performed
  split at performed
  · cases performed
  · simp only [ops] at performed
    exact ⟨machine, performed, by rw [ops]⟩

/-- The stages of all tasks are known. -/
def Stages (cond : Object) (index : ℕ) (r : Record) : Prop := ∃ stage, Staged cond index r stage

theorem Staged.performs (staged : Staged cond index r stage) (same : stage r.machine.current = here)
    (steps : here.ops cond (.other index) = op :: rest) (stepped : r.step .exec = some next) :
    ∃ machine, perform r.machine rest op = some machine ∧ next = r.observe machine (op :: rest) := by
  refine step_exec ?_ stepped
  rw [staged.ops, same, steps]

theorem Staged.goOn (staged : Staged cond index r stage) (new : Stage) {scheduler : Scheduler} {live : ℕ → Bool}
    {nextTaskId : ℕ} {count : Object → BitVec 32} {holder : Option ℕ}
    {released joining waiters expected woken : List ℕ} {ops : List Op} (same : ops = new.ops cond (.other index))
    (places : Places scheduler live nextTaskId (update stage r.machine.current new))
    (exclusive : Exclusive (count (.other index)) holder (update stage r.machine.current new))
    (accounted : Accounted (scheduler.queue (.wait (.cond cond))) joining waiters expected woken holder
      (update stage r.machine.current new)) :
    Staged cond index
      ⟨⟨scheduler, update r.machine.ops r.machine.current ops, live, nextTaskId, count, r.machine.faulted⟩, holder,
        released, joining, waiters, expected, woken⟩ (update stage r.machine.current new) := by
  refine ⟨fun u => ?_, staged.sane, places, exclusive, accounted⟩
  change update r.machine.ops r.machine.current ops u = _
  by_cases here : u = r.machine.current
  · rw [here, update_self, update_self]
    exact same
  · rw [update_of_ne here, update_of_ne here]
    exact staged.ops u

theorem wait_listAdd_rr (s : Scheduler) (list : WaitList) (t : ℕ) :
    (s.listAdd (.rr 0) t).queue (.wait list) = s.queue (.wait list) := by
  have differs : Queue.wait list ≠ .rr 0 := nofun
  unfold Scheduler.listAdd
  dsimp only
  rw [update_of_ne differs]

theorem cond_listAdd_semaphore (s : Scheduler) (cond semaphore : Object) (t : ℕ) :
    (s.listAdd (.wait (.semaphore semaphore)) t).queue (.wait (.cond cond)) = s.queue (.wait (.cond cond)) := by
  have differs : Queue.wait (.cond cond) ≠ .wait (.semaphore semaphore) := nofun
  unfold Scheduler.listAdd
  dsimp only
  rw [update_of_ne differs]

theorem unblocked_of_eq (same : stage r.machine.current = here) (differs : here ≠ .blocked) :
    stage r.machine.scheduler.current ≠ .blocked := fun blocked =>
  differs (same.symm.trans blocked)

section
variable (staged : Staged cond index r stage)
include staged

theorem Staged.busy (same : stage r.machine.current = here) (free : here ≠ .free) (run : here ≠ .run) :
    r.machine.current ≠ idleTask :=
  staged.places.ne_idleTask (fun equal => free (same.symm.trans equal)) fun equal => run (same.symm.trans equal)

theorem Staged.stay (new : Stage) (same : stage r.machine.current = here) (unblocked : here ≠ .blocked)
    (free : here ≠ .free) (run : here ≠ .run) (empty : new.hand = none) (links : new ≠ .link)
    (holds : new.holds = true → here.holds = true) (apart : new.apart = true → here.apart = true)
    (joins : new.joins = true → here.joins = true) (before : here.calm = true) (after : new.calm = true)
    {ops : List Op} (steps : ops = new.ops cond (.other index)) :
    Staged cond index { r with machine := r.machine.goOn ops } (update stage r.machine.current new) := by
  refine staged.goOn new steps (staged.places.goOn (unblocked_of_eq same unblocked) (fun idle => ?_) empty links)
    (staged.exclusive.go (fun there => ?_) fun there => ?_) (staged.accounted.goOn ?_ (same ▸ before) after)
  · exact absurd idle (staged.busy same free run)
  · exact staged.exclusive.holds _ (by rw [same]; exact holds there)
  · exact staged.exclusive.apart _ (by rw [same]; exact apart there)
  · rw [same]
    exact joins

theorem Staged.current_off (same : stage r.machine.current = here) (unblocked : here ≠ .blocked) :
    r.machine.current ∉ r.machine.scheduler.queue (.wait (.cond cond)) := fun there =>
  staged.places.not_waiting (unblocked_of_eq same unblocked) _ ((staged.places.sound.linked.node _ _).mp there)

theorem Staged.run (here : stage r.machine.current = .run) (stepped : r.step .exec = some next) :
    Stages cond index next := by
  obtain ⟨machine, performed, rfl⟩ := staged.performs here rfl stepped
  obtain ⟨added, places⟩ := staged.places.run (unblocked_of_eq here nofun)
  have sound := places.sound
  unfold perform at performed
  simp only [added, some.injEq] at performed
  have equal : ¬((((r.machine.scheduler.setTask r.machine.nextTaskId ⟨0, true, some .rr⟩).listAdd (.rr 0)
      r.machine.nextTaskId).task r.machine.current).priority <
        (((r.machine.scheduler.setTask r.machine.nextTaskId ⟨0, true, some .rr⟩).listAdd (.rr 0)
          r.machine.nextTaskId).task r.machine.nextTaskId).priority) := by
    rw [sound.priority, sound.priority]
    exact Int.lt_irrefl 0
  rw [if_neg equal] at performed
  subst performed
  refine ⟨_, staged.goOn .free rfl places ?_ ?_⟩
  · have kept : update r.machine.count (.ofTask r.machine.nextTaskId) 1 (.other index) =
        r.machine.count (.other index) := by
      have differs : Object.other index ≠ .ofTask r.machine.nextTaskId := nofun
      exact update_of_ne differs _ _
    rw [kept]
    exact staged.exclusive.go nofun nofun
  · rw [wait_listAdd_rr]
    exact staged.accounted.goOn nofun (here ▸ rfl) rfl

theorem Staged.lock (here : stage r.machine.current = .lock) (stepped : r.step .exec = some next) :
    Stages cond index next := by
  obtain ⟨machine, performed, rfl⟩ := staged.performs here rfl stepped
  unfold perform at performed
  dsimp only at performed
  unfold Record.observe
  dsimp only
  split at performed
  · rename_i taken
    obtain ⟨removed, free, places⟩ := staged.places.block here (.semaphore (.other index))
    rw [removed] at free places
    rw [show schedRmFromRunqueue r.machine.scheduler r.machine.current = _ from removed, Machine.listAdd_of_free _ _ free]
      at performed
    obtain rfl := some.inj performed
    rw [if_pos taken]
    refine ⟨_, staged.goOn .blocked rfl places (staged.exclusive.go nofun nofun) ?_⟩
    have line : (r.machine.scheduler.queue (.wait (.cond cond))).erase r.machine.current =
        r.machine.scheduler.queue (.wait (.cond cond)) := erase_of_not_mem (staged.current_off here nofun)
    rw [cond_listAdd_semaphore]
    change Accounted ((r.machine.scheduler.queue (.wait (.cond cond))).erase r.machine.current) _ _ _ _ _ _
    rw [line]
    exact staged.accounted.goOn nofun (here ▸ rfl) rfl
  · rename_i free
    obtain rfl := some.inj performed
    rw [if_neg free]
    obtain ⟨none, exclusive⟩ := staged.exclusive.acquire (u := r.machine.current) free
    refine ⟨_, staged.goOn .free rfl (staged.places.goOn (unblocked_of_eq here nofun) (fun _ => .inl rfl) rfl nofun) ?_ ?_⟩
    · change Exclusive (update r.machine.count (.other index) _ (.other index)) _ _
      rw [update_self]
      exact exclusive
    · have accounted := staged.accounted
      rw [none] at accounted
      obtain ⟨shape, sum⟩ := accounted.of_calm rfl
      change Accounted (r.machine.scheduler.queue (.wait (.cond cond))) _ _ _ _ _ _
      rw [shape, sum]
      refine .settle (accounted.joins_update (fun _ _ there => there) nofun) ?_
      change (update stage r.machine.current .free r.machine.current).calm = true
      rw [update_self]
      rfl

end

theorem yield_mem_iff (cond mutex : Object) (waits : Bool) :
    Op.yield ∈ Op.test mutex :: afterRelease cond mutex waits ↔ waits = true := by
  cases waits <;> simp [afterRelease]

section
variable (staged : Staged cond index r stage) {waits : Bool}
include staged

theorem Staged.release (here : stage r.machine.current = .release waits) (stepped : r.step .exec = some next) :
    Stages cond index next := by
  obtain ⟨machine, performed, rfl⟩ := staged.performs here rfl stepped
  obtain rfl := some.inj performed
  have held : r.holder = some r.machine.current := staged.exclusive.holds _ (by rw [here]; rfl)
  refine ⟨_, staged.goOn (.test waits) rfl
    (staged.places.goOn (unblocked_of_eq here nofun) (fun idle => ?_) rfl nofun) ?_ ?_⟩
  · exact absurd idle (staged.busy here nofun nofun)
  · change Exclusive (update r.machine.count (.other index) _ (.other index)) _ _
    rw [update_self]
    exact staged.exclusive.release held rfl
  · have accounted := staged.accounted
    rw [held] at accounted
    have calm : ((some r.machine.current).elim Stage.free stage).calm = true := by
      change (stage r.machine.current).calm = true
      rw [here]
      rfl
    obtain ⟨shape, sum⟩ := accounted.of_calm calm
    change Accounted (r.machine.scheduler.queue (.wait (.cond cond))) _ _ _ _ _ _
    rw [shape, sum]
    refine .settle (accounted.joins_update (fun v _ there => ?_) fun joins => ?_) rfl
    · split
      · exact mem_append_left _ there
      · exact there
    · rw [if_pos ((yield_mem_iff cond (.other index) waits).mpr joins)]
      exact mem_append_right _ (mem_singleton_self _)

theorem Staged.test (here : stage r.machine.current = .test waits) (stepped : r.step .exec = some next) :
    Stages cond index next := by
  obtain ⟨machine, performed, rfl⟩ := staged.performs here rfl stepped
  obtain rfl := some.inj performed
  unfold Record.observe
  dsimp only
  split
  · cases waits with
    | false => exact ⟨_, staged.stay .free here nofun nofun nofun rfl nofun nofun nofun nofun rfl rfl rfl⟩
    | true =>
      exact ⟨_, staged.stay .clear here nofun nofun nofun rfl nofun nofun (fun _ => rfl) (fun _ => rfl) rfl rfl rfl⟩
  · exact ⟨_, staged.stay (.first waits) here nofun nofun nofun rfl nofun nofun (fun _ => rfl) id rfl rfl rfl⟩

theorem Staged.first (here : stage r.machine.current = .first waits)
    (finds : r.machine.scheduler.queue (.wait (.semaphore (.other index))) ≠ []) (stepped : r.step .exec = some next) :
    Stages cond index next := by
  obtain ⟨machine, performed, rfl⟩ := staged.performs here rfl stepped
  unfold perform at performed
  dsimp only at performed
  cases line : r.machine.scheduler.queue (.wait (.semaphore (.other index))) with
  | nil => exact absurd line finds
  | cons t waiting =>
    rw [line] at performed
    obtain rfl := some.inj performed
    exact ⟨_, staged.stay (.unblock waits t) here nofun nofun nofun rfl nofun nofun (fun _ => rfl) id rfl rfl rfl⟩

theorem Staged.unblock (here : stage r.machine.current = .unblock waits t)
    (finds : t ∈ r.machine.scheduler.queue (.wait (.semaphore (.other index)))) (stepped : r.step .exec = some next) :
    Stages cond index next := by
  obtain ⟨machine, performed, rfl⟩ := staged.performs here rfl stepped
  obtain rfl := some.inj performed
  have apart : (stage r.machine.current).apart = true := by rw [here]; rfl
  have linked := staged.places.sound.linked
  have off : t ∉ r.machine.scheduler.queue (.wait (.cond cond)) := by
    intro there
    have node := (linked.node t _).mp there
    rw [(linked.node t _).mp finds] at node
    cases node
  refine ⟨_, staged.goOn (.raise waits t false) rfl
    (staged.places.unlink (unblocked_of_eq here nofun) (staged.busy here nofun nofun) finds rfl rfl)
    (staged.exclusive.go nofun fun _ => staged.exclusive.apart _ apart) ?_⟩
  change Accounted ((r.machine.scheduler.queue (.wait (.cond cond))).erase t) _ _ _ _ _ _
  rw [erase_of_not_mem off]
  refine staged.accounted.other (staged.exclusive.apart _ apart) fun joins => ?_
  rw [here]
  exact joins

end

theorem perform_ready (m : Machine) (rest : List Op) (t : ℕ) :
    perform m rest (addOp t false) = some { m.goOn (.enqueue t :: rest) with scheduler := m.scheduler.ready t } := rfl

section
variable (staged : Staged cond index r stage)
include staged

theorem Staged.perform_enqueue (holds : (stage r.machine.current).hand = some t) (rest : List Op) :
    perform r.machine rest (addOp t true) =
      some { r.machine.goOn rest with scheduler := r.machine.scheduler.listAdd (.rr 0) t } := by
  obtain ⟨alive, other, node, -⟩ := staged.places.in_hand holds
  have sound := staged.places.sound
  have after := sound.listAdd node alive other (.rr 0)
  change perform r.machine rest (.enqueue t) = _
  unfold perform
  simp only [sound.enqueueTask_eq alive other]
  rw [if_neg (by rw [node]; nofun), if_neg]
  · rfl
  · rw [after.priority, after.priority]
    exact Int.lt_irrefl 0

theorem Staged.raise {waits ready : Bool} (here : stage r.machine.current = .raise waits t ready)
    (stepped : r.step .exec = some next) : Stages cond index next := by
  have apart : (stage r.machine.current).apart = true := by rw [here]; rfl
  have other := staged.exclusive.apart _ apart
  have hand : (stage r.machine.current).hand = some t := by rw [here]; rfl
  have unblocked := unblocked_of_eq here nofun
  have busy := staged.busy here nofun nofun
  obtain ⟨machine, performed, rfl⟩ := staged.performs here rfl stepped
  cases ready with
  | false =>
    rw [perform_ready] at performed
    obtain rfl := some.inj performed
    obtain ⟨-, places⟩ := staged.places.ready unblocked busy hand (rfl : (Stage.raise waits t true).hand = some t)
    refine ⟨_, staged.goOn (.raise waits t true) rfl places (staged.exclusive.go nofun fun _ => other) ?_⟩
    refine staged.accounted.other other fun joins => ?_
    rw [here]
    exact joins
  | true =>
    rw [staged.perform_enqueue hand] at performed
    obtain rfl := some.inj performed
    change Stages cond index (ite _ _ _)
    rw [if_neg fun holder => other holder.1]
    have joins : (Stage.released waits).joins = true → (stage r.machine.current).joins = true := by
      rw [here]
      cases waits with
      | false => nofun
      | true => exact fun _ => rfl
    have released : (Stage.released waits).ops cond (.other index) = afterRelease cond (.other index) waits ∧
        (Stage.released waits).hand = none ∧ Stage.released waits ≠ .link ∧ (Stage.released waits).holds = false := by
      cases waits with
      | false | true => exact ⟨rfl, rfl, nofun, rfl⟩
    obtain ⟨steps, empty, links, holds⟩ := released
    refine ⟨_, staged.goOn (.released waits) steps.symm (staged.places.enqueue unblocked busy hand empty links)
      (staged.exclusive.go (fun there => ?_) fun _ => other) ?_⟩
    · rw [holds] at there
      cases there
    · rw [wait_listAdd_rr]
      exact staged.accounted.other other joins

theorem Staged.clear (here : stage r.machine.current = .clear) (stepped : r.step .exec = some next) :
    Stages cond index next := by
  obtain ⟨machine, performed, rfl⟩ := staged.performs here rfl stepped
  have other := staged.exclusive.apart r.machine.current (by rw [here]; rfl)
  have policy := staged.places.sound.policy r.machine.current staged.places.sound.current
  rw [if_neg (staged.busy here nofun nofun)] at policy
  unfold perform at performed
  dsimp only at performed
  split at performed
  · rename_i none
    rw [policy] at none
    cases none
  · obtain rfl := some.inj performed
    refine ⟨_, staged.goOn .dequeue rfl (staged.places.clear here) (staged.exclusive.go nofun fun _ => other) ?_⟩
    refine staged.accounted.other other fun _ => ?_
    rw [here]
    rfl

theorem Staged.dequeue (here : stage r.machine.current = .dequeue) (stepped : r.step .exec = some next) :
    Stages cond index next := by
  obtain ⟨machine, performed, rfl⟩ := staged.performs here rfl stepped
  have other := staged.exclusive.apart r.machine.current (by rw [here]; rfl)
  obtain rfl := some.inj performed
  refine ⟨_, staged.goOn .link rfl (staged.places.dequeue here) (staged.exclusive.go nofun fun _ => other) ?_⟩
  change Accounted ((r.machine.scheduler.queue (.wait (.cond cond))).erase r.machine.current) _ _ _ _ _ _
  rw [erase_of_not_mem (staged.current_off here nofun)]
  refine staged.accounted.other other fun _ => ?_
  rw [here]
  rfl

theorem Staged.link (here : stage r.machine.current = .link) (stepped : r.step .exec = some next) :
    Stages cond index next := by
  obtain ⟨machine, performed, rfl⟩ := staged.performs here rfl stepped
  have other := staged.exclusive.apart r.machine.current (by rw [here]; rfl)
  unfold perform at performed
  dsimp only at performed
  rw [Machine.listAdd_of_free _ _ (staged.places.off _ here)] at performed
  obtain rfl := some.inj performed
  refine ⟨_, staged.goOn .blocked rfl (staged.places.link here (.cond cond)) (staged.exclusive.go nofun nofun) ?_⟩
  have line : (r.machine.scheduler.listAdd (.wait (.cond cond)) r.machine.current).queue (.wait (.cond cond)) =
      r.machine.scheduler.queue (.wait (.cond cond)) ++ [r.machine.current] := by
    unfold Scheduler.listAdd
    dsimp only
    rw [update_self]
  rw [line]
  exact staged.accounted.link here other

theorem Staged.account (holds : (stage r.machine.current).holds = true) :
    r.holder = some r.machine.current ∧ ∃ left,
      r.machine.scheduler.queue (.wait (.cond cond)) = left ++ r.waiters ∧
        r.expected = r.woken ++ ((stage r.machine.current).hand.toList ++ left) ∧
          (stage r.machine.current).Leaves r.waiters r.joining left := by
  have held := staged.exclusive.holds r.machine.current holds
  have account := staged.accounted.left
  rw [held] at account
  exact ⟨held, account⟩

theorem Staged.goOnWake (new : Stage) {scheduler : Scheduler} {released joining waiters expected woken : List ℕ}
    {ops : List Op} (same : ops = new.ops cond (.other index)) (held : r.holder = some r.machine.current)
    (places : Places scheduler r.machine.live r.machine.nextTaskId (update stage r.machine.current new))
    (kept : ∀ v, v ≠ r.machine.current → v ∈ r.joining → v ∈ joining) (joins : new.joins = false)
    (apart : new.apart = false) (left : List ℕ) (shape : scheduler.queue (.wait (.cond cond)) = left ++ waiters)
    (sum : expected = woken ++ (new.hand.toList ++ left)) (leaves : new.Leaves waiters joining left) :
    Staged cond index
      ⟨{ r.machine.goOn ops with scheduler := scheduler }, r.holder, released, joining, waiters, expected, woken⟩
        (update stage r.machine.current new) := by
  refine staged.goOn new same places (staged.exclusive.go (fun _ => held) fun there => ?_) ?_
  · rw [apart] at there
    cases there
  · have accounted := staged.accounted
    rw [held] at accounted ⊢
    exact accounted.of_holder kept joins left shape sum leaves

end

/-- A signal is for the head of the wait list when that is the task that released the mutex first. -/
theorem Record.signal_head (some : r.released ≠ []) (first : r.waiters.head? = r.released.head?) :
    ∃ t waiting released, r.waiters = t :: waiting ∧
      r.signal = { r with released, waiters := waiting, expected := r.expected ++ [t] } := by
  unfold Record.signal
  cases line : r.released with
  | nil => exact absurd line some
  | cons t others =>
    rw [line] at first
    cases waits : r.waiters with
    | nil => rw [waits] at first; cases first
    | cons u waiting =>
      rw [waits] at first
      obtain rfl := Option.some.inj first
      refine ⟨u, waiting, others, rfl, ?_⟩
      dsimp only
      rw [if_pos mem_cons_self, erase_cons_head]

theorem Staged.signal (staged : Staged cond index r stage) (here : stage r.machine.current = .signal)
    (finds : r.Finds (.first (.cond cond))) (stepped : r.step .exec = some next) : Stages cond index next := by
  obtain ⟨machine, performed, rfl⟩ := staged.performs here rfl stepped
  obtain ⟨held, left, shape, sum, leaves⟩ := staged.account (by rw [here]; rfl)
  rw [here] at sum leaves
  obtain rfl : left = [] := leaves
  have waiters : r.machine.scheduler.queue (.wait (.cond cond)) = r.waiters := shape
  obtain ⟨t, waiting, released, line, signal⟩ := r.signal_head finds.1 (waiters ▸ finds.2)
  unfold perform at performed
  dsimp only [Record.observe] at performed ⊢
  rw [waiters, line] at performed
  obtain rfl := Option.some.inj performed
  rw [signal]
  refine ⟨_, staged.goOnWake (.unlink none t) rfl held
    (staged.places.goOn (unblocked_of_eq here nofun) (fun idle => ?_) rfl nofun) (fun _ _ there => there) rfl rfl [t]
    (waiters.trans line) ?_ rfl⟩
  · exact absurd idle (staged.busy here nofun nofun)
  · rw [sum]
    exact congrArg (· ++ _) (append_nil r.woken)

theorem Staged.broadcast (staged : Staged cond index r stage) (here : stage r.machine.current = .broadcast)
    (finds : r.joining = []) (stepped : r.step .exec = some next) : Stages cond index next := by
  obtain ⟨machine, performed, rfl⟩ := staged.performs here rfl stepped
  obtain ⟨held, left, shape, sum, leaves⟩ := staged.account (by rw [here]; rfl)
  rw [here] at sum leaves
  obtain rfl : left = [] := leaves
  obtain rfl := some.inj performed
  refine ⟨_, staged.goOnWake (.turn (r.machine.scheduler.queue (.wait (.cond cond))).head?) rfl held
    (staged.places.goOn (unblocked_of_eq here nofun) (fun idle => ?_) rfl nofun) (fun v _ there => ?_) rfl rfl
    (r.machine.scheduler.queue (.wait (.cond cond))) ?_ ?_ ⟨rfl, rfl, rfl⟩⟩
  · exact absurd idle (staged.busy here nofun nofun)
  · rwa [finds] at there
  · exact (append_nil _).symm
  · rw [shape, sum, finds, append_nil r.waiters]
    exact congrArg (· ++ _) (append_nil r.woken)

theorem nextNode_head (t : ℕ) (waiting : List ℕ) : nextNode (t :: waiting) t = waiting.head? := by
  unfold nextNode
  rw [dropWhile_cons_of_neg (by simp)]
  rfl

section
variable (staged : Staged cond index r stage)
include staged

theorem Staged.turn {iter : Option ℕ} (here : stage r.machine.current = .turn iter)
    (stepped : r.step .exec = some next) : Stages cond index next := by
  obtain ⟨machine, performed, rfl⟩ := staged.performs here rfl stepped
  obtain ⟨held, left, shape, sum, leaves⟩ := staged.account (by rw [here]; rfl)
  rw [here] at sum leaves
  obtain ⟨none, alone, rfl⟩ := leaves
  have busy := staged.busy here nofun nofun
  cases left with
  | nil =>
    obtain rfl := some.inj performed
    exact ⟨_, staged.goOnWake .free rfl held
      (staged.places.goOn (unblocked_of_eq here nofun) (fun _ => .inl rfl) rfl nofun) (fun _ _ there => there) rfl rfl []
      shape sum rfl⟩
  | cons t waiting =>
    rw [none, append_nil] at shape
    unfold perform at performed
    simp only [List.head?_cons, shape, nextNode_head] at performed
    rw [if_pos mem_cons_self] at performed
    obtain rfl := some.inj performed
    refine ⟨_, staged.goOnWake (.unlink (some waiting.head?) t) rfl held
      (staged.places.goOn (unblocked_of_eq here nofun) (fun idle => absurd idle busy) rfl nofun)
      (fun _ _ there => there) rfl rfl (t :: waiting) ?_ sum ⟨none, alone, waiting, rfl, rfl⟩⟩
    rw [none, append_nil]
    exact shape

theorem Staged.unlink {loop : Option (Option ℕ)} (here : stage r.machine.current = .unlink loop t)
    (stepped : r.step .exec = some next) : Stages cond index next := by
  obtain ⟨machine, performed, rfl⟩ := staged.performs here rfl stepped
  obtain ⟨held, left, shape, sum, leaves⟩ := staged.account (by rw [here]; rfl)
  rw [here] at sum leaves
  obtain rfl := some.inj performed
  -- The task is the first of those that are left, in a signal and in a broadcast.
  have taken : ∃ waiting, left = t :: waiting ∧
      (Stage.wake loop t false).Leaves r.waiters r.joining waiting := by
    cases loop with
    | none => exact ⟨[], leaves, rfl⟩
    | some iter =>
      obtain ⟨none, alone, waiting, first, next⟩ := leaves
      exact ⟨waiting, first, none, alone, next⟩
  obtain ⟨waiting, rfl, later⟩ := taken
  have finds : t ∈ r.machine.scheduler.queue (.wait (.cond cond)) := by
    rw [shape]
    exact mem_cons_self
  refine ⟨_, staged.goOnWake (.wake loop t false) rfl held
    (staged.places.unlink (unblocked_of_eq here nofun) (staged.busy here nofun nofun) finds rfl rfl)
    (fun _ _ there => there) rfl rfl waiting ?_ sum later⟩
  change (r.machine.scheduler.queue (.wait (.cond cond))).erase t = _
  rw [shape, cons_append, erase_cons_head]

theorem Staged.wake {loop : Option (Option ℕ)} {ready : Bool} (here : stage r.machine.current = .wake loop t ready)
    (stepped : r.step .exec = some next) : Stages cond index next := by
  obtain ⟨machine, performed, rfl⟩ := staged.performs here rfl stepped
  obtain ⟨held, left, shape, sum, leaves⟩ := staged.account (by rw [here]; rfl)
  rw [here] at sum leaves
  have hand : (stage r.machine.current).hand = some t := by rw [here]; rfl
  have unblocked := unblocked_of_eq here nofun
  have busy := staged.busy here nofun nofun
  cases ready with
  | false =>
    rw [perform_ready] at performed
    obtain rfl := some.inj performed
    obtain ⟨same, places⟩ := staged.places.ready unblocked busy hand (rfl : (Stage.wake loop t true).hand = some t)
    refine ⟨_, staged.goOnWake (.wake loop t true) rfl held places (fun _ _ there => there) rfl rfl left ?_ sum ?_⟩
    · rw [same]
      exact shape
    · cases loop with
      | none => exact leaves
      | some iter => exact leaves
  | true =>
    rw [staged.perform_enqueue hand] at performed
    obtain rfl := some.inj performed
    obtain ⟨alive, other, -⟩ := staged.places.in_hand hand
    have runnable : Runnable { r.machine.goOn (afterWake cond loop) with
        scheduler := r.machine.scheduler.listAdd (.rr 0) t } t := by
      have policy := staged.places.sound.policy t alive
      have priority := staged.places.sound.priority t
      rw [if_neg other] at policy
      refine ⟨staged.places.raised _ t (by rw [here]; rfl), ?_⟩
      have queue : Machine.runqueue { r.machine.goOn (afterWake cond loop) with
          scheduler := r.machine.scheduler.listAdd (.rr 0) t } t = .rr 0 := by
        unfold Machine.runqueue
        dsimp only [Scheduler.listAdd]
        rw [policy, priority]
        rfl
      rw [queue]
      change t ∈ update r.machine.scheduler.queue (.rr 0) _ (.rr 0)
      rw [update_self]
      exact mem_append_right _ (mem_singleton_self t)
    change Stages cond index (ite _ _ _)
    rw [if_pos ⟨held, runnable⟩]
    have line : (r.machine.scheduler.listAdd (.rr 0) t).queue (.wait (.cond cond)) = left ++ r.waiters :=
      (wait_listAdd_rr _ _ _).trans shape
    have woken : r.expected = r.woken ++ [t] ++ left := sum.trans (append_assoc r.woken [t] left).symm
    cases loop with
    | none =>
      exact ⟨_, staged.goOnWake .free rfl held (staged.places.enqueue unblocked busy hand rfl nofun)
        (fun _ _ there => there) rfl rfl left line woken leaves⟩
    | some iter =>
      exact ⟨_, staged.goOnWake (.turn iter) rfl held (staged.places.enqueue unblocked busy hand rfl nofun)
        (fun _ _ there => there) rfl rfl left line woken leaves⟩

theorem Staged.exec (ready : r.Ready .exec) (stepped : r.step .exec = some next) : Stages cond index next := by
  have finds (op : Op) (rest : List Op) (ops : (stage r.machine.current).ops cond (.other index) = op :: rest) :
      r.Finds op := by
    refine ready op ?_
    rw [staged.ops, ops]
    rfl
  cases here : stage r.machine.current with
  | free =>
    obtain ⟨machine, performed, -⟩ := map_eq_some_iff.mp stepped
    have ops : r.machine.ops r.machine.current = [] := by rw [staged.ops, here]; rfl
    unfold Tasks.step at performed
    simp only [ops] at performed
    split at performed <;> cases performed
  | run => exact staged.run here stepped
  | lock => exact staged.lock here stepped
  | blocked =>
    have ops : r.machine.ops r.machine.current = [.yield, .down (.other index)] := by rw [staged.ops, here]; rfl
    obtain ⟨machine, performed, -⟩ := step_exec ops stepped
    cases performed
  | release waits => exact staged.release here stepped
  | test waits => exact staged.test here stepped
  | first waits => exact staged.first here (finds (.first (.semaphore _)) _ (by rw [here]; rfl)) stepped
  | unblock waits t => exact staged.unblock here (finds (.unlink (.semaphore _) t) _ (by rw [here]; rfl)) stepped
  | raise waits t ready => exact staged.raise here stepped
  | clear => exact staged.clear here stepped
  | dequeue => exact staged.dequeue here stepped
  | link => exact staged.link here stepped
  | signal => exact staged.signal here (finds (.first (.cond cond)) _ (by rw [here]; rfl)) stepped
  | broadcast => exact staged.broadcast here (finds (.broadcast cond) _ (by rw [here]; rfl)) stepped
  | turn iter => exact staged.turn here stepped
  | unlink loop t => exact staged.unlink here stepped
  | wake loop t ready => exact staged.wake here stepped

end

theorem afterSwitch_ops (cond mutex : Object) (stage : Stage) :
    afterSwitch (stage.ops cond mutex) = stage.switched.ops cond mutex := by
  cases stage with
  | raise waits t ready => cases ready <;> rfl
  | wake loop t ready => cases ready <;> rfl
  | _ => rfl

theorem Staged.tick (staged : Staged cond index r stage) (stepped : r.step .tick = some next) :
    Stages cond index next := by
  obtain ⟨machine, ticked, rfl⟩ := map_eq_some_iff.mp stepped
  unfold Tasks.step at ticked
  split at ticked
  · cases ticked
  obtain ⟨scheduler, scheduled, rfl⟩ := map_eq_some_iff.mp ticked
  rw [if_neg fun kills => Bool.false_ne_true (staged.places.spared.symm.trans kills.1)]
  obtain ⟨places, line⟩ := staged.places.tick scheduled
  have kept : (stage r.machine.current).switched.holds = (stage r.machine.current).holds ∧
      (stage r.machine.current).switched.apart = (stage r.machine.current).apart ∧
        (stage r.machine.current).switched.joins = (stage r.machine.current).joins := by
    cases stage r.machine.current <;> exact ⟨rfl, rfl, rfl⟩
  refine ⟨_, staged.goOn (stage r.machine.current).switched ?_ places (staged.exclusive.go (fun holds => ?_) fun apart => ?_)
    ?_⟩
  · rw [staged.ops]
    exact afterSwitch_ops cond (.other index) _
  · exact staged.exclusive.holds _ (kept.1 ▸ holds)
  · exact staged.exclusive.apart _ (kept.2.1 ▸ apart)
  · rw [line]
    by_cases blocked : stage r.machine.current = .blocked
    · rw [blocked]
      exact staged.accounted.goOn nofun (blocked ▸ rfl) rfl
    · have same : (stage r.machine.current).switched = stage r.machine.current := by
        cases here : stage r.machine.current <;> first | rfl | exact absurd here blocked
      rw [same, update_eq_self]
      exact staged.accounted

theorem Staged.call (staged : Staged cond index r stage) {call : Call} (uses : r.Uses cond (.other index) (.call call))
    (stepped : r.step (.call call) = some next) : Stages cond index next := by
  obtain ⟨machine, called, rfl⟩ := map_eq_some_iff.mp stepped
  unfold Tasks.step at called
  dsimp only at called
  split at called
  · cases called
  split at called
  swap
  · cases called
  rename_i ops
  obtain rfl := some.inj called
  rw [staged.ops] at ops
  have here : stage r.machine.current = .free := by
    cases here : stage r.machine.current <;> first | rfl | (rw [here] at ops; cases ops)
  -- The stage of each call that the use of the condition allows
  have starts (new : Stage) (program : call.program = new.ops cond (.other index))
      (idles : r.machine.current = idleTask → new = .run) (empty : new.hand = none) (links : new ≠ .link)
      (holds : new.holds = true → r.holder = some r.machine.current) (apart : new.apart = false)
      (joins : new.joins = false) (calm : new.calm = true) :
      Stages cond index { r with machine := r.machine.goOn call.program } := by
    refine ⟨_, staged.goOn new program
      (staged.places.goOn (unblocked_of_eq here nofun) (fun idle => .inr (idles idle)) empty links)
      (staged.exclusive.go holds fun there => ?_) (staged.accounted.goOn (fun there => ?_) (here ▸ rfl) calm)⟩
    · rw [apart] at there
      cases there
    · rw [joins] at there
      cases there
  obtain rfl | ⟨busy, rfl | ⟨held, there⟩⟩ := uses
  · exact starts .run rfl (fun _ => rfl) rfl nofun nofun rfl rfl rfl
  · exact starts .lock rfl (fun idle => absurd idle busy) rfl nofun nofun rfl rfl rfl
  simp only [mem_cons, not_mem_nil, or_false] at there
  obtain rfl | rfl | rfl | rfl := there
  · exact starts (.release false) rfl (fun idle => absurd idle busy) rfl nofun (fun _ => held) rfl rfl rfl
  · exact starts (.release true) rfl (fun idle => absurd idle busy) rfl nofun (fun _ => held) rfl rfl rfl
  · exact starts .signal rfl (fun idle => absurd idle busy) rfl nofun (fun _ => held) rfl rfl rfl
  · exact starts .broadcast rfl (fun idle => absurd idle busy) rfl nofun (fun _ => held) rfl rfl rfl

/-- A step of the users keeps each task at a stage. -/
theorem Staged.step (staged : Staged cond index r stage) {action : Action} (uses : r.Uses cond (.other index) action)
    (ready : r.Ready action) (stepped : r.step action = some next) : Stages cond index next := by
  cases action with
  | call call => exact staged.call uses stepped
  | exec => exact staged.exec ready stepped
  | tick => exact staged.tick stepped

theorem staged_initial (cond : Object) (config : Config) (values : ℕ → BitVec 32) (free : values index = 1) :
    Staged cond index (Record.initial config values) fun _ => .free where
  ops _ := rfl
  sane := rfl
  places :=
    { sound := (Machine.Settled.boot config values).sound
      spared := rfl
      idles := .inl rfl
      alive := fun _ busy => absurd rfl busy
      waits := nofun
      held := nofun
      alone := nofun
      raised := nofun
      off := nofun }
  exclusive := ⟨free, nofun, nofun⟩
  accounted := .settle nofun rfl

/-- With all tasks at their stages the signals so far have woken the right ones. -/
theorem Staged.right (staged : Staged cond index r stage) : r.Right cond := by
  obtain ⟨left, shape, sum, leaves⟩ := staged.accounted.left
  refine ⟨staged.sane, ⟨_, sum.symm⟩, fun ended => ?_⟩
  have calm : (r.holder.elim .free stage).calm = true := by
    cases held : r.holder with
    | none => rfl
    | some u =>
      have ends (op : Op) (rest : List Op) (ops : (stage u).ops cond (.other index) = op :: rest) :
          Op.wakes op ≠ true := by
        intro wakes
        refine ended ⟨u, held, op, ?_, wakes⟩
        rw [staged.ops, ops]
        rfl
      change (stage u).calm = true
      cases here : stage u with
      | turn iter | unlink loop t => exact absurd rfl (ends _ _ (by rw [here]; rfl))
      | raise waits t ready | wake loop t ready => cases ready <;> exact absurd rfl (ends _ _ (by rw [here]; rfl))
      | _ => rfl
  obtain ⟨line, woken⟩ := staged.accounted.of_calm calm
  exact ⟨woken.symm, line⟩

theorem Record.silent {action : Action} (ready : r.Ready action) : r.Silent cond action := by
  cases action with
  | exec =>
    intro rest ops empty
    have finds : r.released ≠ [] ∧ _ := ready (.first (.cond cond)) (by rw [ops]; rfl)
    exact absurd empty finds.1
  | call call => trivial
  | tick => trivial

end Exec

/-- When every signal finds a waiter, no broadcast comes while a task is on its way to the wait list and the unlocks of
the mutex find their waiters, a signal without waiters changes nothing, and signals and broadcasts make exactly those
tasks runnable that they are to wake. -/
theorem task_cond_wakeups (cond : Object) (index : ℕ) (config : Config) (values : ℕ → BitVec 32)
    (free : values index = 1) (actions : List Action)
    (uses : Guarded Record.step (Record.Uses cond (.other index)) (.initial config values) actions)
    (ready : Guarded Record.step Record.Ready (.initial config values) actions) :
    Guarded Record.step (Record.Silent cond) (.initial config values) actions ∧
      ∀ r, run Record.step (.initial config values) actions = some r → r.Right cond := by
  have starts : Stages cond index (Record.initial config values) :=
    ⟨_, staged_initial cond config values free⟩
  constructor
  · refine Guarded.imp (Stages cond index) ?_ starts (uses.and ready)
    rintro r action ⟨stage, staged⟩ ⟨used, finds⟩
    exact ⟨Record.silent finds, fun next stepped => staged.step used finds stepped⟩
  · intro r ran
    obtain ⟨stage, staged⟩ := run_invariant_of_guarded (Stages cond index) starts (uses.and ready) ran
      fun ⟨stage, staged⟩ ⟨used, finds⟩ stepped => staged.step used finds stepped
    exact staged.right

instance (cond mutex : Object) (r : Record) (action : Action) : Decidable (r.Uses cond mutex action) :=
  match action with
  | .call call => inferInstanceAs (Decidable (call = .run ∨ r.machine.current ≠ idleTask ∧ (call = .lock mutex ∨
      r.holder = some r.machine.current ∧
        call ∈ [.unlock mutex, .condWait cond mutex, .condSignal cond, .condBroadcast cond])))
  | .exec | .tick => isTrue trivial

instance (r : Record) (op : Op) : Decidable (r.Finds op) :=
  match op with
  | .first (.semaphore semaphore) =>
    inferInstanceAs (Decidable (r.machine.scheduler.queue (.wait (.semaphore semaphore)) ≠ []))
  | .first (.cond cond) => inferInstanceAs (Decidable (r.released ≠ [] ∧
      (r.machine.scheduler.queue (.wait (.cond cond))).head? = r.released.head?))
  | .unlink (.semaphore semaphore) t =>
    inferInstanceAs (Decidable (t ∈ r.machine.scheduler.queue (.wait (.semaphore semaphore))))
  | .broadcast _ => inferInstanceAs (Decidable (r.joining = []))
  | .unlink (.cond _) _ | .turn _ _ | .down _ | .inc _ | .test _ | .ready _ | .enqueue _ | .clear _ | .dequeue _
  | .link _ | .yield | .exitClear | .exitDequeue | .kill | .run => isTrue trivial

instance (r : Record) (action : Action) : Decidable (r.Ready action) :=
  match action with
  | .exec => inferInstanceAs (Decidable (∀ op ∈ (r.machine.ops r.machine.current).head?, r.Finds op))
  | .call _ | .tick => isTrue trivial

/-- The second task locks the mutex and waits for the condition, and the first one locks the mutex and signals it. -/
def signalRun : List Action :=
  [.call .run, .exec, .call .run, .exec, .tick, .call (.lock (.other 0)), .exec,
    .call (.condWait (.other 1) (.other 0)), .exec, .exec, .exec, .exec, .exec, .tick,
    .call (.lock (.other 0)), .exec, .call (.condSignal (.other 1)), .exec, .exec, .exec, .exec]

theorem task_cond_wakeups_signal :
    ∃ r, run Record.step (.initial ⟨32, 32, by decide⟩ fun _ => 1) signalRun = some r ∧ r.woken = [2] ∧
      r.Right (.other 1) := by
  refine exists_final Record.woken [2] (by decide +kernel) fun r ran woken => ?_
  have right := (task_cond_wakeups (.other 1) 0 ⟨32, 32, by decide⟩ (fun _ => 1) rfl signalRun
    (by decide +kernel)
    (by decide +kernel)).2
  exact ⟨woken, right r ran⟩

/-- A holder of the mutex signals the condition while no task waits. -/
theorem task_cond_signal_without_waiters :
    ¬∀ cond index config values actions, values index = 1 →
      Guarded Record.step (Record.Uses cond (.other index)) (.initial config values) actions →
        Guarded Record.step (Record.Silent cond) (.initial config values) actions ∧
          ∀ r, run Record.step (.initial config values) actions = some r → r.Right cond := by
  intro always
  have right := always (.other 1) 0 ⟨32, 32, by decide⟩ (fun _ => 1)
    [.call .run, .exec, .tick, .call (.lock (.other 0)), .exec, .call (.condSignal (.other 1)), .exec] rfl
    (by decide +kernel)
  exact absurd (right.2 _ rfl).sane (by decide +kernel)

end Phabos.Tasks.Condition
