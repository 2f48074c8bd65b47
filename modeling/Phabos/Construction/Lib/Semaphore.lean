import Mathlib.Algebra.Ring.Nat
import Mathlib.Logic.Function.Basic

/-
This file embeds lib/semaphore.c, as any number of tasks run it on one semaphore. A step is a part of a function
that interrupts do not divide.
-/

namespace Phabos.Sem

/-- Where a task is in a function of the semaphore. -/
inductive Phase where
  | idle
  /-- It is about to disable the interrupts in `__semaphore_down_interruptible`. -/
  | entering (interruptible : Bool)
  /-- It waits in the loop of `__semaphore_down_interruptible`. -/
  | sleeping (interruptible : Bool)
  /-- It has incremented the count in `semaphore_unlock`. -/
  | incremented
  /-- It has found a waiter on the wait list in `semaphore_unlock`. -/
  | found
  /-- It is about to take a task off the wait list in `task_remove_from_wait_list`. -/
  | removing (task : ℕ)
  /-- It is about to call `sched_add_to_runqueue` for a task that it took off the wait list. -/
  | adding (task : ℕ)
  deriving DecidableEq, Repr

/-- `runnable` says that the task is on its runqueue, and `unlock` that the callback of its lock is set. -/
structure Task where
  phase : Phase
  runnable : Bool
  lockInterrupted : Bool
  unlock : Bool
  deriving DecidableEq, Repr

/-- The record keeps the completed increments and successful calls, and for each call that returned `-EINTR` the
count before and after it. -/
structure Semaphore where
  count : BitVec 32
  waitList : List ℕ
  tasks : List ℕ
  task : ℕ → Task
  faulted : Bool
  unlocks : ℕ
  successes : ℕ
  interrupted : List (BitVec 32 × BitVec 32)

/-- `semaphore_init`, with tasks that do not use the semaphore yet -/
def semaphoreInit (val : BitVec 32) (tasks : List ℕ) : Semaphore :=
  ⟨val, [], tasks, fun _ => ⟨.idle, true, false, false⟩, false, 0, 0, []⟩

def Semaphore.setTask (s : Semaphore) (t : ℕ) (task : Task) : Semaphore :=
  { s with task := Function.update s.task t task }

/-- A turn of the loop in `__semaphore_down_interruptible`, with interrupts disabled: the task goes to the wait
list, or it leaves the loop. `atomic_get` returns an unsigned value, so that no count is below 0. -/
def semaphoreDown (s : Semaphore) (t : ℕ) (interruptible : Bool) : Semaphore :=
  if s.count = 0 ∧ ¬(s.task t).lockInterrupted then
    { s.setTask t { s.task t with phase := .sleeping interruptible, runnable := false, unlock := interruptible } with
      waitList := s.waitList.erase t ++ [t] }
  else
    let left := { s.setTask t { s.task t with phase := .idle, lockInterrupted := false, unlock := false } with
      count := s.count - 1 }
    if (s.task t).lockInterrupted then { left with interrupted := s.interrupted ++ [(s.count, s.count - 1)] }
    else { left with successes := s.successes + 1 }

inductive Action where
  /-- `_semaphore_lock` or `_semaphore_down_interruptible` -/
  | enter (t : ℕ) (interruptible : Bool)
  | down (t : ℕ)
  | trylock (t : ℕ)
  /-- `atomic_inc` in `semaphore_unlock` -/
  | unlock (t : ℕ)
  /-- `list_is_empty` in `semaphore_unlock` -/
  | test (t : ℕ)
  /-- `list_first_entry` in `semaphore_unlock` -/
  | first (t : ℕ)
  /-- A call of the `unlock` callback of another task -/
  | interrupt (t task : ℕ)
  /-- `list_del` in `task_remove_from_wait_list` -/
  | remove (t : ℕ)
  /-- `sched_add_to_runqueue` in `task_remove_from_wait_list` -/
  | add (t : ℕ)
  deriving DecidableEq, Repr

/-- The task that takes a step. -/
def Action.actor : Action → ℕ
  | .enter t _ | .down t | .trylock t | .unlock t | .test t | .first t | .interrupt t _ | .remove t | .add t => t

/-- What a task does in its phase. The first entry of an empty list is not a task. -/
def act (s : Semaphore) : Action → Option Semaphore
  | .enter t interruptible =>
    if (s.task t).phase = .idle then
      some (s.setTask t { s.task t with phase := .entering interruptible, lockInterrupted := false })
    else none
  | .down t =>
    match (s.task t).phase with
    | .entering interruptible | .sleeping interruptible => some (semaphoreDown s t interruptible)
    | _ => none
  | .trylock t =>
    if (s.task t).phase ≠ .idle then none
    else if s.count = 0 then some s
    else some (semaphoreDown (s.setTask t { s.task t with lockInterrupted := false }) t false)
  | .unlock t =>
    if (s.task t).phase = .idle then
      some { s.setTask t { s.task t with phase := .incremented } with
        count := s.count + 1, unlocks := s.unlocks + 1 }
    else none
  | .test t =>
    if (s.task t).phase = .incremented then
      some (s.setTask t { s.task t with phase := if s.waitList = [] then .idle else .found })
    else none
  | .first t =>
    if (s.task t).phase ≠ .found then none
    else match s.waitList with
      | [] => some { s with faulted := true }
      | task :: _ => some (s.setTask t { s.task t with phase := .removing task })
  | .interrupt t task =>
    if (s.task t).phase = .idle ∧ (s.task task).unlock then
      let s := s.setTask task { s.task task with lockInterrupted := true }
      some (s.setTask t { s.task t with phase := .removing task })
    else none
  | .remove t =>
    match (s.task t).phase with
    | .removing task =>
      let s := s.setTask t { s.task t with phase := .adding task }
      some { s.setTask task { s.task task with runnable := false } with waitList := s.waitList.erase task }
    | _ => none
  | .add t =>
    match (s.task t).phase with
    | .adding task =>
      let s := s.setTask t { s.task t with phase := .idle }
      some (s.setTask task { s.task task with runnable := true })
    | _ => none

/-- Tasks take their steps in any order, but only when they are on their runqueue. -/
def step (s : Semaphore) (action : Action) : Option Semaphore :=
  if s.faulted = false ∧ action.actor ∈ s.tasks ∧ (s.task action.actor).runnable then act s action else none

end Phabos.Sem
