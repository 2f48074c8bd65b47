import Phabos.Proof.Kernel.ConditionStages
import Phabos.Proof.Kernel.TaskPlaces

namespace Phabos.Tasks.Condition
open Library Sched Function

/-- A run of tasks that use one condition with its mutex. The record keeps the holder of the mutex, the tasks that have
released it in `task_cond_wait` and are not signalled, in the order of their releases, those of them that have not joined
the wait list and those that have, in its order, the tasks that the signals and broadcasts were to wake so far, and those
that their callers made runnable. -/
structure Record where
  machine : Machine
  holder : Option ℕ
  released : List ℕ
  joining : List ℕ
  waiters : List ℕ
  expected : List ℕ
  woken : List ℕ

def Record.initial (config : Config) (values : ℕ → BitVec 32) : Record := ⟨boot config values, none, [], [], [], [], []⟩

/-- A task is running and on its runqueue. -/
def Runnable (m : Machine) (t : ℕ) : Prop :=
  (m.scheduler.task t).running = true ∧ t ∈ m.scheduler.queue (m.runqueue t)

instance (m : Machine) (t : ℕ) : Decidable (Runnable m t) :=
  inferInstanceAs (Decidable (_ ∧ t ∈ m.scheduler.queue (m.runqueue t)))

/-- A signal is to wake the task that released the mutex first. -/
def Record.signal (r : Record) : Record :=
  match r.released with
  | [] => r
  | t :: released =>
    { r with
      released
      joining := if t ∈ r.waiters then r.joining else r.joining.erase t
      waiters := r.waiters.erase t
      expected := r.expected ++ [t] }

/-- The record after the first of the steps of the current task. A broadcast is to wake all tasks that have released the
mutex. -/
def Record.observe (r : Record) (next : Machine) : List Op → Record
  | .down semaphore :: _ =>
    if r.machine.count semaphore = 0 then { r with machine := next }
    else { r with machine := next, holder := some r.machine.current }
  | .inc _ :: rest =>
    { r with
      machine := next
      holder := none
      released := if .yield ∈ rest then r.released ++ [r.machine.current] else r.released
      joining := if .yield ∈ rest then r.joining ++ [r.machine.current] else r.joining }
  | .link _ :: _ =>
    { r with
      machine := next
      joining := r.joining.erase r.machine.current
      waiters := r.waiters ++ [r.machine.current] }
  | .first (.cond _) :: _ => { r.signal with machine := next }
  | .broadcast _ :: _ =>
    { r with
      machine := next
      released := []
      joining := []
      waiters := []
      expected := r.expected ++ (r.waiters ++ r.joining) }
  | .enqueue t :: _ =>
    if r.holder = some r.machine.current ∧ Runnable next t then { r with machine := next, woken := r.woken ++ [t] }
    else { r with machine := next }
  | _ => { r with machine := next }

def Record.step (r : Record) : Action → Option Record
  | .call call => (Tasks.step r.machine (.call call)).map fun next => { r with machine := next }
  | .tick => (Tasks.step r.machine .tick).map fun next => { r with machine := next }
  | .exec => (Tasks.step r.machine .exec).map fun next => r.observe next (r.machine.ops r.machine.current)

/-- The tasks use the condition with its mutex: only the holder of the mutex unlocks it, waits, signals and broadcasts.
The idle task does none of this. -/
def Record.Uses (cond mutex : Object) (r : Record) : Action → Prop
  | .call call =>
    call = .run ∨ r.machine.current ≠ idleTask ∧ (call = .lock mutex ∨ r.holder = some r.machine.current ∧
      call ∈ [.unlock mutex, .condWait cond mutex, .condSignal cond, .condBroadcast cond])
  | .exec | .tick => True

/-- A signal finds the task that released the mutex first at the head of the wait list, an unlock finds a waiter that is
still on the list when it is taken off, and no task is on its way to the wait list at a broadcast. -/
def Record.Finds (r : Record) : Op → Prop
  | .first (.semaphore semaphore) => r.machine.scheduler.queue (.wait (.semaphore semaphore)) ≠ []
  | .first (.cond cond) =>
    r.released ≠ [] ∧ (r.machine.scheduler.queue (.wait (.cond cond))).head? = r.released.head?
  | .unlink (.semaphore semaphore) t => t ∈ r.machine.scheduler.queue (.wait (.semaphore semaphore))
  | .broadcast _ => r.joining = []
  | _ => True

def Record.Ready (r : Record) : Action → Prop
  | .exec => ∀ op ∈ (r.machine.ops r.machine.current).head?, r.Finds op
  | .call _ | .tick => True

/-- A step of a signal or a broadcast that has begun -/
def Op.wakes : Op → Bool
  | .turn _ _ | .unlink _ _ | .ready _ | .enqueue _ => true
  | _ => false

/-- The holder of the mutex is in the middle of a signal or a broadcast. -/
def Record.Waking (r : Record) : Prop := ∃ u, r.holder = some u ∧ ∃ op ∈ (r.machine.ops u).head?, Op.wakes op = true

/-- The lists are sane, no other task was made runnable than those that were to be woken, in their order, and all of
them were when a signal or a broadcast is over, with the other waiters still on the list. -/
structure Record.Right (cond : Object) (r : Record) : Prop where
  sane : r.machine.faulted = false
  only : r.woken <+: r.expected
  all : ¬r.Waking → r.woken = r.expected ∧ r.machine.scheduler.queue (.wait (.cond cond)) = r.waiters

/-- A signal without waiters changes nothing. -/
def Record.Silent (cond : Object) (r : Record) : Action → Prop
  | .exec => ∀ rest, r.machine.ops r.machine.current = .first (.cond cond) :: rest → r.released = [] →
      Tasks.step r.machine .exec = some (r.machine.goOn rest)
  | .call _ | .tick => True

/-- The stages at which a task holds the mutex -/
def Stage.holds : Stage → Bool
  | .release _ | .signal | .broadcast | .turn _ | .unlink _ _ | .wake _ _ _ => true
  | _ => false

/-- The stages of a task that has released the mutex -/
def Stage.apart : Stage → Bool
  | .test _ | .first _ | .unblock _ _ | .raise _ _ _ | .clear | .dequeue | .link => true
  | _ => false

/-- The stages from the release of the mutex in `task_cond_wait` to the wait list -/
def Stage.joins : Stage → Bool
  | .test waits | .first waits | .unblock waits _ | .raise waits _ _ => waits
  | .clear | .dequeue | .link => true
  | _ => false

/-- The mutex is free or has one holder, who alone is at the stages of a holder. -/
structure Exclusive (count : BitVec 32) (holder : Option ℕ) (stage : ℕ → Stage) : Prop where
  count : count = if holder = none then 1 else 0
  holds : ∀ u, (stage u).holds = true → holder = some u
  apart : ∀ u, (stage u).apart = true → holder ≠ some u

section Exclusive
variable {count : BitVec 32} {holder : Option ℕ} {stage : ℕ → Stage} {u : ℕ} {new : Stage}

theorem Exclusive.go (exclusive : Exclusive count holder stage) (holds : new.holds = true → holder = some u)
    (apart : new.apart = true → holder ≠ some u) : Exclusive count holder (update stage u new) := by
  refine ⟨exclusive.count, fun v here => ?_, fun v here => ?_⟩
  · by_cases same : v = u
    · rw [same, update_self] at here
      rw [same]
      exact holds here
    · rw [update_of_ne same] at here
      exact exclusive.holds v here
  · by_cases same : v = u
    · rw [same, update_self] at here
      rw [same]
      exact apart here
    · rw [update_of_ne same] at here
      exact exclusive.apart v here

theorem Exclusive.acquire (exclusive : Exclusive count holder stage) (free : count ≠ 0) :
    holder = none ∧ Exclusive (count - 1) (some u) (update stage u .free) := by
  have none : holder = none := by
    by_contra held
    rw [exclusive.count, if_neg held] at free
    exact free rfl
  refine ⟨none, ?_, fun v here => ?_, fun v here => ?_⟩
  · rw [exclusive.count, if_pos none]
    rfl
  · by_cases same : v = u
    · rw [same]
    · rw [update_of_ne same] at here
      have held := exclusive.holds v here
      rw [none] at held
      cases held
  · by_cases same : v = u
    · rw [same, update_self] at here
      cases here
    · exact fun equal => same (Option.some.inj equal).symm

theorem Exclusive.release (exclusive : Exclusive count holder stage) (held : holder = some u)
    (released : new.holds = false) : Exclusive (count + 1) none (update stage u new) := by
  refine ⟨?_, fun v here => ?_, nofun⟩
  · rw [exclusive.count, if_neg (held ▸ nofun), if_pos rfl]
    rfl
  · by_cases same : v = u
    · rw [same, update_self, released] at here
      cases here
    · rw [update_of_ne same] at here
      exact absurd (Option.some.inj ((exclusive.holds v here).symm.trans held)) same

end Exclusive

/-- The tasks on the wait list that the holder of the mutex has still to wake -/
def Stage.Leaves (waiters joining left : List ℕ) : Stage → Prop
  | .turn iter => waiters = [] ∧ joining = [] ∧ iter = left.head?
  | .unlink none t => left = [t]
  | .unlink (some iter) t => waiters = [] ∧ joining = [] ∧ ∃ rest, left = t :: rest ∧ iter = rest.head?
  | .wake (some iter) _ _ => waiters = [] ∧ joining = [] ∧ iter = left.head?
  | _ => left = []

/-- The stages outside of a wakeup -/
def Stage.calm : Stage → Bool
  | .raise _ _ _ | .turn _ | .unlink _ _ | .wake _ _ _ => false
  | _ => true

/-- The wait list holds the tasks that are left to wake and then the waiters, and the tasks to be woken are woken, in
hand or left. -/
structure Accounted (line joining waiters expected woken : List ℕ) (holder : Option ℕ) (stage : ℕ → Stage) : Prop where
  joins : ∀ u, (stage u).joins = true → u ∈ joining
  left : ∃ left, line = left ++ waiters ∧ expected = woken ++ ((holder.elim .free stage).hand.toList ++ left) ∧
    (holder.elim .free stage).Leaves waiters joining left

section Accounted
variable {line joining waiters expected woken left : List ℕ} {holder : Option ℕ} {stage : ℕ → Stage} {u t : ℕ}
  {new : Stage}

theorem Stage.calm_leaves (stage : Stage) (calm : stage.calm = true) :
    stage.hand = none ∧ (stage.Leaves waiters joining left ↔ left = []) := by
  cases stage <;> first | exact ⟨rfl, Iff.rfl⟩ | cases calm

theorem Accounted.of_calm (accounted : Accounted line joining waiters expected woken holder stage)
    (calm : (holder.elim .free stage).calm = true) : line = waiters ∧ expected = woken := by
  obtain ⟨left, shape, sum, leaves⟩ := accounted.left
  obtain ⟨hand, none⟩ := (holder.elim .free stage).calm_leaves calm
  obtain rfl := none.mp leaves
  rw [hand] at sum
  exact ⟨shape, sum.trans (List.append_nil woken)⟩

theorem Accounted.joins_update (accounted : Accounted line joining waiters expected woken holder stage)
    {joining' : List ℕ} (kept : ∀ v, v ≠ u → v ∈ joining → v ∈ joining') (here : new.joins = true → u ∈ joining') (v : ℕ)
    (joins : (update stage u new v).joins = true) : v ∈ joining' := by
  by_cases same : v = u
  · rw [same, update_self] at joins
    rw [same]
    exact here joins
  · rw [update_of_ne same] at joins
    exact kept v same (accounted.joins v joins)

theorem elim_update (other : holder ≠ some u) :
    holder.elim Stage.free (update stage u new) = holder.elim .free stage := by
  cases holder with
  | none => rfl
  | some v => exact update_of_ne (fun same => other (congrArg some same)) _ _

theorem Accounted.other (accounted : Accounted line joining waiters expected woken holder stage)
    (other : holder ≠ some u) (joins : new.joins = true → (stage u).joins = true) :
    Accounted line joining waiters expected woken holder (update stage u new) := by
  refine ⟨accounted.joins_update (fun _ _ there => there) fun here => accounted.joins u (joins here), ?_⟩
  rw [elim_update other]
  exact accounted.left

theorem Accounted.settle (joins : ∀ u, (stage u).joins = true → u ∈ joining)
    (calm : (holder.elim .free stage).calm = true) :
    Accounted waiters joining waiters woken woken holder stage := by
  obtain ⟨hand, none⟩ : (holder.elim Stage.free stage).hand = .none ∧
      ((holder.elim Stage.free stage).Leaves waiters joining [] ↔ ([] : List ℕ) = []) := Stage.calm_leaves _ calm
  refine ⟨joins, [], rfl, ?_, none.mpr rfl⟩
  rw [hand]
  exact (List.append_nil woken).symm

theorem Accounted.goOn (accounted : Accounted line joining waiters expected woken holder stage)
    (joins : new.joins = true → (stage u).joins = true) (before : (stage u).calm = true) (after : new.calm = true) :
    Accounted line joining waiters expected woken holder (update stage u new) := by
  by_cases held : holder = some u
  · subst held
    obtain ⟨rfl, rfl⟩ := accounted.of_calm before
    refine .settle (accounted.joins_update (fun _ _ there => there) fun here => accounted.joins u (joins here)) ?_
    change (update stage u new u).calm = true
    rwa [update_self]
  · exact accounted.other held joins

theorem Accounted.of_holder {line' joining' waiters' expected' woken' : List ℕ}
    (accounted : Accounted line joining waiters expected woken (some u) stage)
    (kept : ∀ v, v ≠ u → v ∈ joining → v ∈ joining') (joins : new.joins = false) (left : List ℕ)
    (shape : line' = left ++ waiters') (sum : expected' = woken' ++ (new.hand.toList ++ left))
    (leaves : new.Leaves waiters' joining' left) :
    Accounted line' joining' waiters' expected' woken' (some u) (update stage u new) := by
  refine ⟨accounted.joins_update kept fun here => ?_, left, shape, ?_, ?_⟩
  · rw [joins] at here
    cases here
  · change expected' = woken' ++ ((update stage u new u).hand.toList ++ left)
    rwa [update_self]
  · change (update stage u new u).Leaves waiters' joining' left
    rwa [update_self]

theorem Accounted.link (accounted : Accounted line joining waiters expected woken holder stage)
    (here : stage u = .link) (other : holder ≠ some u) :
    Accounted (line ++ [u]) (joining.erase u) (waiters ++ [u]) expected woken holder
      (update stage u .blocked) := by
  have there : u ∈ joining := by
    refine accounted.joins u ?_
    rw [here]
    rfl
  refine ⟨accounted.joins_update (fun v differs there => (List.mem_erase_of_ne differs).mpr there) nofun, ?_⟩
  rw [elim_update other]
  obtain ⟨left, shape, sum, leaves⟩ := accounted.left
  refine ⟨left, ?_, sum, ?_⟩
  · rw [shape, List.append_assoc]
  · generalize holder.elim Stage.free stage = active at leaves
    have empty : joining ≠ [] := List.ne_nil_of_mem there
    cases active with
    | turn iter => exact absurd leaves.2.1 empty
    | unlink loop t | wake loop t ready =>
      cases loop with
      | none => exact leaves
      | some iter => exact absurd leaves.2.1 empty
    | _ => exact leaves

end Accounted

/-- The stages of the tasks in a record -/
structure Staged (cond : Object) (index : ℕ) (r : Record) (stage : ℕ → Stage) : Prop where
  ops : ∀ u, r.machine.ops u = (stage u).ops cond (.other index)
  sane : r.machine.faulted = false
  places : Places r.machine.scheduler r.machine.live r.machine.nextTaskId stage
  exclusive : Exclusive (r.machine.count (.other index)) r.holder stage
  accounted : Accounted (r.machine.scheduler.queue (.wait (.cond cond))) r.joining r.waiters r.expected r.woken r.holder
    stage

end Phabos.Tasks.Condition
