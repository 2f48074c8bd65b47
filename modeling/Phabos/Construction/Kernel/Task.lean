import Phabos.Construction.Kernel.Scheduler

/-
This file embeds kernel/task.c, with the locks of lib/semaphore.c, as the tasks run it under the scheduler. A task
has the steps before it that it is still to take; the interrupts are enabled between two steps only.
-/

namespace Phabos.Tasks
open Sched

inductive Op where
  /-- A turn of the loop in `__semaphore_down_interruptible` -/
  | down (semaphore : Object)
  /-- `atomic_inc` in `semaphore_unlock` -/
  | inc (semaphore : Object)
  /-- `list_is_empty` in `semaphore_unlock` -/
  | test (semaphore : Object)
  /-- `list_first_entry` before `task_remove_from_wait_list` -/
  | first (list : WaitList)
  /-- `task_cond_broadcast`: the first node -/
  | broadcast (cond : Object)
  /-- The loop of `task_cond_broadcast` at a task, or at the head of the list. -/
  | turn (cond : Object) (iter : Option ℕ)
  /-- `list_del` in `task_remove_from_wait_list`, for a task that was found on a list -/
  | unlink (list : WaitList) (t : ℕ)
  /-- `sched_add_to_runqueue`: the state -/
  | ready (t : ℕ)
  /-- `sched_add_to_runqueue`: the call of the policy -/
  | enqueue (t : ℕ)
  /-- `sched_rm_from_runqueue` in `task_add_to_wait_list`: the state -/
  | clear (list : WaitList)
  /-- `sched_rm_from_runqueue` in `task_add_to_wait_list`: the call of the policy -/
  | dequeue (list : WaitList)
  /-- `list_add` in `task_add_to_wait_list` -/
  | link (list : WaitList)
  /-- `sched_yield` -/
  | yield
  /-- `sched_rm_from_runqueue` in `task_exit`: the state -/
  | exitClear
  /-- `sched_rm_from_runqueue` in `task_exit`: the call of the policy -/
  | exitDequeue
  /-- The flag in `task_exit` -/
  | kill
  /-- `task_run`, whose task gets a number that no task has had -/
  | run
  deriving DecidableEq, Repr

structure Machine where
  scheduler : Scheduler
  ops : ℕ → List Op
  live : ℕ → Bool
  nextTaskId : ℕ
  count : Object → BitVec 32
  faulted : Bool

/-- The machine after `sched_init`, with the initial values of the semaphores. Its only task is the idle task. -/
def boot (config : Config) (values : ℕ → BitVec 32) : Machine where
  scheduler := schedInit config (fun _ => 0) (fun _ => none)
  ops _ := []
  live t := t = idleTask
  nextTaskId := 1
  count
    | .ofTask _ => 1
    | .other index => values index
  faulted := false

inductive Call where
  /-- `semaphore_lock` or `mutex_lock` -/
  | lock (semaphore : Object)
  /-- `semaphore_unlock` or `mutex_unlock` -/
  | unlock (semaphore : Object)
  | condWait (cond mutex : Object)
  | condSignal (cond : Object)
  | condBroadcast (cond : Object)
  | wait (t : ℕ)
  | exit
  | run
  deriving DecidableEq, Repr

def semaphoreLock (semaphore : Object) : List Op := [.down semaphore]

def semaphoreUnlock (semaphore : Object) : List Op := [.inc semaphore, .test semaphore]

def taskCondWait (cond mutex : Object) : List Op :=
  semaphoreUnlock mutex ++ [.clear (.cond cond), .yield] ++ semaphoreLock mutex

def taskWait (t : ℕ) : List Op :=
  semaphoreLock (.ofTask t) ++ taskCondWait (.ofTask t) (.ofTask t) ++ semaphoreUnlock (.ofTask t)

def Call.program : Call → List Op
  | .lock semaphore => semaphoreLock semaphore
  | .unlock semaphore => semaphoreUnlock semaphore
  | .condWait cond mutex => taskCondWait cond mutex
  | .condSignal cond => [.first (.cond cond)]
  | .condBroadcast cond => [.broadcast cond]
  | .wait t => taskWait t
  | .exit => [.exitClear]
  | .run => [.run]

def Machine.current (m : Machine) : ℕ := m.scheduler.current

/-- The current task goes on with some steps. -/
def Machine.goOn (m : Machine) (ops : List Op) : Machine :=
  { m with ops := Function.update m.ops m.current ops }

/-- The node after a task on a list, or the head of the list. -/
def nextNode (list : List ℕ) (t : ℕ) : Option ℕ := (list.dropWhile (· ≠ t)).tail.head?

/-- The machine is faulted when a node is added that is on a list. -/
def Machine.listAdd (m : Machine) (queue : Queue) (t : ℕ) : Machine :=
  if (m.scheduler.node t).isSome then { m with faulted := true }
  else { m with scheduler := m.scheduler.listAdd queue t }

/-- What the current task does in a step, with the steps after it. An exit has no steps after it. -/
def perform (m : Machine) (rest : List Op) : Op → Option Machine
  | .down semaphore =>
    if m.count semaphore = 0 then
      let m := { m with scheduler := schedRmFromRunqueue m.scheduler m.current }
      some ((m.listAdd (.wait (.semaphore semaphore)) m.current).goOn (.yield :: .down semaphore :: rest))
    else
      let m := { m with count := Function.update m.count semaphore (m.count semaphore - 1) }
      some (m.goOn rest)
  | .inc semaphore =>
    let m := { m with count := Function.update m.count semaphore (m.count semaphore + 1) }
    some (m.goOn rest)
  | .test semaphore =>
    some (m.goOn (if m.scheduler.queue (.wait (.semaphore semaphore)) = [] then rest
      else .first (.semaphore semaphore) :: rest))
  | .first list =>
    match m.scheduler.queue (.wait list) with
    | [] => some { m with faulted := true }
    | t :: _ => some (m.goOn (.unlink list t :: rest))
  | .broadcast cond => some (m.goOn (.turn cond (m.scheduler.queue (.wait (.cond cond))).head? :: rest))
  | .turn _ none => some (m.goOn rest)
  | .turn cond (some t) =>
    -- The loop stops here when its next node has left the list, which it then does not go on with.
    if t ∈ m.scheduler.queue (.wait (.cond cond)) then
      some (m.goOn (.unlink (.cond cond) t ::
        .turn cond (nextNode (m.scheduler.queue (.wait (.cond cond))) t) :: rest))
    else some { m with faulted := true }
  | .unlink _ t => some { m.goOn (.ready t :: rest) with scheduler := m.scheduler.listDel t }
  | .ready t => some { m.goOn (.enqueue t :: rest) with scheduler := m.scheduler.ready t }
  | .enqueue t =>
    match ((m.scheduler.task t).policy.getD .rr).enqueueTask m.scheduler t with
    | none => some (m.goOn rest)
    | some scheduler =>
      if (m.scheduler.node t).isSome then some { m with faulted := true }
      else
        let m := { m with scheduler := scheduler }
        let higher := (scheduler.task m.current).priority < (scheduler.task t).priority
        some (m.goOn (if higher then .yield :: rest else rest))
  | .clear list =>
    match (m.scheduler.task m.current).policy with
    | none => some (m.goOn (.link list :: rest))
    | some _ =>
      let task := { m.scheduler.task m.current with running := false }
      some { m.goOn (.dequeue list :: rest) with scheduler := m.scheduler.setTask m.current task }
  | .dequeue list => some { m.goOn (.link list :: rest) with scheduler := m.scheduler.listDel m.current }
  | .link list => some ((m.listAdd (.wait list) m.current).goOn rest)
  | .yield => none
  | .exitClear =>
    match (m.scheduler.task m.current).policy with
    | none => some (m.goOn [.broadcast (.ofTask m.current), .kill, .yield])
    | some _ =>
      let task := { m.scheduler.task m.current with running := false }
      some { m.goOn (.exitDequeue :: rest) with scheduler := m.scheduler.setTask m.current task }
  | .exitDequeue =>
    some { m.goOn [.broadcast (.ofTask m.current), .kill, .yield] with
      scheduler := m.scheduler.listDel m.current }
  | .kill => some { m.goOn rest with scheduler := { m.scheduler with killTask := true } }
  | .run =>
    let t := m.nextTaskId
    let scheduler := schedAddToRunqueue (m.scheduler.setTask t ⟨0, true, none⟩) t
    let higher := (scheduler.task m.current).priority < (scheduler.task t).priority
    some { m.goOn (if higher then .yield :: rest else rest) with
      scheduler := scheduler
      live := Function.update m.live t true
      nextTaskId := t + 1
      count := Function.update m.count (.ofTask t) 1 }

/-- The steps of a task after a switch to another one: a task that yields has yielded. -/
def afterSwitch : List Op → List Op
  | .yield :: rest => rest
  | ops => ops

/-- A call of `schedule`, by `sched_yield` or by a tick. -/
def tick (m : Machine) : Option Machine :=
  (schedule m.scheduler).map fun next =>
    if m.scheduler.killTask ∧ m.current ≠ idleTask then
      { m with
        scheduler := next
        live := Function.update m.live m.current false
        ops := Function.update m.ops m.current [] }
    else { m with scheduler := next, ops := Function.update m.ops m.current (afterSwitch (m.ops m.current)) }

inductive Action where
  | call (call : Call)
  | exec
  | tick
  deriving DecidableEq, Repr

def step (m : Machine) (action : Action) : Option Machine :=
  if m.faulted then none
  else match action with
    | .call call => if m.ops m.current = [] then some (m.goOn call.program) else none
    | .exec =>
      match m.ops m.current with
      | [] => none
      | op :: rest => perform m rest op
    | .tick => tick m

/-
This part embeds the ways in which a task of kernel/task.c ends, over the machine of all tasks, and records who
still waits in `task_wait` for a task when the memory of that task is released.
-/

/-- A task is in `task_wait` for a task, before its last step that can find it blocked. -/
def Machine.inTaskWait (m : Machine) (waiter t : ℕ) : Bool := Op.test (.ofTask t) ∈ m.ops waiter

def isRunqueue : Queue → Bool
  | .fifo _ | .rr _ => true
  | .wait _ => false

/-- A task is `TASK_RUNNING` and on a runqueue. The idle task is picked when no other one is. -/
def Machine.runnable (m : Machine) (t : ℕ) : Bool :=
  decide (t = idleTask) || ((m.scheduler.task t).running && (m.scheduler.node t).any isRunqueue)

/-- The tasks that wait in `task_wait` for a task and are not runnable -/
def Machine.waiters (m : Machine) (t : ℕ) : List ℕ :=
  (List.range m.nextTaskId).filter fun waiter => m.inTaskWait waiter t && !m.runnable waiter

/-- `removed` are the tasks that `task_exit` has removed from the runqueue. `stranded` are the tasks that were still
blocked in `task_wait` for a task at its `task_destroy`. -/
structure Lifetime where
  machine : Machine
  removed : ℕ → Bool
  stranded : List ℕ

def Lifetime.boot (config : Config) (values : ℕ → BitVec 32) : Lifetime where
  machine := Tasks.boot config values
  removed _ := false
  stranded := []

inductive EndAction where
  /-- A call, `task_exit` included, a step of the current task, or a tick -/
  | task (action : Action)
  /-- `sys_exit` or `_exit` -/
  | sysExit
  | annihilate (t : ℕ)
  deriving DecidableEq, Repr

/-- What a step of the machine changes in the records. A task that is made by `task_run` is a new one. -/
def Lifetime.record (m : Lifetime) (action : Action) (next : Machine) : Lifetime :=
  match action with
  | .call _ => { m with machine := next }
  | .exec =>
    match (m.machine.ops m.machine.current).head? with
    | some .exitDequeue => { m with machine := next, removed := Function.update m.removed m.machine.current true }
    | some .run => { m with machine := next, removed := Function.update m.removed m.machine.nextTaskId false }
    | _ => { m with machine := next }
  | .tick =>
    if m.machine.scheduler.killTask ∧ m.machine.current ≠ idleTask then
      { m with machine := next, stranded := m.stranded ++ m.machine.waiters m.machine.current }
    else { m with machine := next }

def Lifetime.perform (m : Lifetime) (action : Action) : Option Lifetime :=
  (Tasks.step m.machine action).map (m.record action)

/-- `sys_exit`: the idle task panics. -/
def Lifetime.sysExit (m : Lifetime) : Option Lifetime :=
  if m.machine.current = idleTask then none else m.perform (.call .exit)

/-- `list_del` and `task_destroy` with the interrupts disabled -/
def Machine.destroy (m : Machine) (t : ℕ) : Machine :=
  { m with
    scheduler := m.scheduler.listDel t
    live := Function.update m.live t false
    ops := Function.update m.ops t [] }

/-- `task_annihilate` by the current task: only itself exits first. -/
def Lifetime.taskAnnihilate (m : Lifetime) (t : ℕ) : Option Lifetime :=
  if m.machine.faulted ∨ m.machine.ops m.machine.current ≠ [] then none
  else if t = idleTask then some m
  else if m.machine.current = t then m.perform (.call .exit)
  else if m.machine.live t = true then
    some { m with machine := m.machine.destroy t, stranded := m.stranded ++ m.machine.waiters t }
  else none

def Lifetime.step (m : Lifetime) : EndAction → Option Lifetime
  | .task action => m.perform action
  | .sysExit => m.sysExit
  | .annihilate t => m.taskAnnihilate t

end Phabos.Tasks
