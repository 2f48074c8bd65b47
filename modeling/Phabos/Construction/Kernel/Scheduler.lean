import Phabos.Construction.Kernel.Mm

/-
This file embeds the scheduler and its two policies. A queue is the list of its tasks, from the head on.
-/

namespace Phabos.Sched

inductive Policy where
  | fifo
  | rr
  deriving DecidableEq, Repr

/-- A semaphore or a condition: the `wait_mutex` or the `wait_cond` of a task, or another one. -/
inductive Object where
  | ofTask (t : ℕ)
  | other (index : ℕ)
  deriving DecidableEq, Repr

inductive WaitList where
  | semaphore (object : Object)
  | cond (object : Object)
  deriving DecidableEq, Repr

/-- The lists that the only list node of a task can be on. -/
inductive Queue where
  | fifo (priority : ℕ)
  | rr (priority : ℕ)
  | wait (list : WaitList)
  deriving DecidableEq, Repr

/-- `running` is `TASK_RUNNING` in the state of the task. -/
structure Task where
  priority : ℤ
  running : Bool
  policy : Option Policy
  deriving DecidableEq, Repr

structure Config where
  numFifoPriorities : ℕ
  numRrPriorities : ℕ
  positive : 0 < numRrPriorities

/-- `node` says which list the node of a task is linked into. -/
structure Scheduler where
  config : Config
  task : ℕ → Task
  queue : Queue → List ℕ
  node : ℕ → Option Queue
  current : ℕ
  needResched : Bool
  killTask : Bool
  isLocked : BitVec 32

def idleTask : ℕ := 0

/-- `sched_init`, with tasks that are not enqueued yet -/
def schedInit (config : Config) (priority : ℕ → ℤ) (policy : ℕ → Option Policy) : Scheduler where
  config := config
  task t := if t = idleTask then ⟨0, true, none⟩ else ⟨priority t, false, policy t⟩
  queue _ := []
  node _ := none
  current := idleTask
  needResched := false
  killTask := false
  isLocked := 0

def Scheduler.setTask (s : Scheduler) (t : ℕ) (task : Task) : Scheduler :=
  { s with task := Function.update s.task t task }

def Scheduler.listAdd (s : Scheduler) (queue : Queue) (t : ℕ) : Scheduler :=
  { s with
    queue := Function.update s.queue queue (s.queue queue ++ [t])
    node := Function.update s.node t (some queue) }

/-- A node that is on no list is linked to itself, so that `list_del` does nothing to it. -/
def Scheduler.listDel (s : Scheduler) (t : ℕ) : Scheduler :=
  { s with
    queue := fun queue => (s.queue queue).erase t
    node := Function.update s.node t none }

def listRotateAnticlockwise : List ℕ → List ℕ
  | [] => []
  | first :: rest => rest ++ [first]

/-- The result is `none` for `-EINVAL`. -/
def enqueueTask (queue : ℕ → Queue) (priorities : ℕ) (s : Scheduler) (t : ℕ) : Option Scheduler :=
  if 0 ≤ (s.task t).priority ∧ (s.task t).priority ≤ priorities - 1 then
    some (s.listAdd (queue (s.task t).priority.toNat) t)
  else none

def schedFifoEnqueueTask (s : Scheduler) : ℕ → Option Scheduler :=
  enqueueTask .fifo s.config.numFifoPriorities s

def schedRrEnqueueTask (s : Scheduler) : ℕ → Option Scheduler :=
  enqueueTask .rr s.config.numRrPriorities s

def Policy.enqueueTask (policy : Policy) (s : Scheduler) : ℕ → Option Scheduler :=
  match policy with
  | .fifo => schedFifoEnqueueTask s
  | .rr => schedRrEnqueueTask s

/-- The loop of a policy over its queues, from the highest priority down to the first queue with a task. -/
def highest (queue : ℕ → List ℕ) : ℕ → Option ℕ
  | 0 => none
  | i + 1 => if queue i = [] then highest queue i else some i

def schedFifoPickTask (s : Scheduler) : Option ℕ :=
  (highest (fun i => s.queue (.fifo i)) s.config.numFifoPriorities).bind fun i => (s.queue (.fifo i)).head?

def schedRrPickTask (s : Scheduler) : Scheduler × Option ℕ :=
  match highest (fun i => s.queue (.rr i)) s.config.numRrPriorities with
  | none => (s, none)
  | some i =>
    let rotated := listRotateAnticlockwise (s.queue (.rr i))
    ({ s with queue := Function.update s.queue (.rr i) rotated }, rotated.head?)

/-- `sched_add_to_runqueue` up to the call of the policy -/
def Scheduler.ready (s : Scheduler) (t : ℕ) : Scheduler :=
  s.setTask t { s.task t with policy := some ((s.task t).policy.getD .rr), running := true }

def schedYield (s : Scheduler) : Scheduler := { s with needResched := true }

def schedAddToRunqueue (s : Scheduler) (t : ℕ) : Scheduler :=
  let s := s.ready t
  match ((s.task t).policy.getD .rr).enqueueTask s t with
  | none => s
  | some s => if (s.task s.current).priority < (s.task t).priority then schedYield s else s

/-- Without a policy the result is `-EINVAL`, and nothing changes. -/
def schedRmFromRunqueue (s : Scheduler) (t : ℕ) : Scheduler :=
  match (s.task t).policy with
  | none => s
  | some _ => (s.setTask t { s.task t with running := false }).listDel t

/-- A task that annihilates itself does not return. -/
def taskAnnihilate (s : Scheduler) (t : ℕ) : Option Scheduler :=
  if t = idleTask then some s
  else if s.current = t then none
  else some (s.listDel t)

/-- The choice between the task of the policies before and the task that the next policy picks. -/
def prefer (s : Scheduler) : Option ℕ → Option ℕ → Option ℕ
  | none, picked => picked
  | some t, none => some t
  | some t, some picked => if (s.task t).priority < (s.task picked).priority then some picked else some t

/-- The part of `schedule` after the choice. -/
def switchTo (s rotated : Scheduler) (t : ℕ) : Option Scheduler :=
  let next := { rotated with current := t, needResched := false }
  if s.killTask then taskAnnihilate { next with killTask := false } s.current else some next

/-- The result is `none` for a panic. -/
def schedule (s : Scheduler) : Option Scheduler :=
  if s.isLocked ≠ 0 then some s
  else
    let (rotated, picked) := schedRrPickTask s
    match prefer s (schedFifoPickTask s) picked with
    | none => if (s.task idleTask).running then switchTo s rotated idleTask else none
    | some t => switchTo s rotated t

def EINVAL : ℤ := 22

def ESRCH : ℤ := 3

def SCHED_FIFO : ℤ := 0

def SCHED_RR : ℤ := 1

/-- `table` is what `hashtable_get` finds in `task_table`. -/
def findTaskById (table : ℤ → Option ℕ) (id : ℤ) : Option ℕ := if id < 0 then none else table id

/-- The task that a call with a `pid` is about -/
def pidTask (table : ℤ → Option ℕ) (s : Scheduler) (pid : ℤ) : Option ℕ :=
  if pid ≠ 0 then findTaskById table pid else some s.current

/-- The `switch` of `sys_sched_setscheduler` -/
def policyOf (policy : ℤ) : Option Policy :=
  if policy = SCHED_RR then some .rr else if policy = SCHED_FIFO then some .fifo else none

/-- The results of `sched_rm_from_runqueue` and `sched_add_to_runqueue` are ignored. -/
def sysSchedSetscheduler (table : ℤ → Option ℕ) (s : Scheduler) (pid policy : ℤ) : ℤ × Scheduler :=
  match pidTask table s pid with
  | none => (-ESRCH, s)
  | some t =>
    if (s.task t).policy = none then (-EINVAL, s)
    else
      let s := schedRmFromRunqueue s t
      match policyOf policy with
      | some new => (0, schedAddToRunqueue (s.setTask t { s.task t with policy := some new }) t)
      | none => (-EINVAL, schedAddToRunqueue s t)

/-- The record keeps the tasks that `schedule` has picked. -/
structure Turns where
  scheduler : Scheduler
  picks : List ℕ

inductive Action where
  | schedule
  /-- `sched_rm_from_runqueue` for the current task -/
  | block
  /-- `sched_add_to_runqueue` for a task that is not running -/
  | wake (t : ℕ)
  /-- `sched_lock` -/
  | lock
  /-- `sched_unlock` -/
  | unlock
  deriving DecidableEq, Repr

def step (s : Turns) : Action → Option Turns
  | .schedule =>
    (schedule s.scheduler).map fun next =>
      ⟨next, if s.scheduler.isLocked ≠ 0 then s.picks else s.picks ++ [next.current]⟩
  | .block => some { s with scheduler := schedRmFromRunqueue s.scheduler s.scheduler.current }
  | .wake t =>
    if (s.scheduler.task t).running then none
    else some { s with scheduler := schedAddToRunqueue s.scheduler t }
  | .lock => some { s with scheduler := { s.scheduler with isLocked := s.scheduler.isLocked + 1 } }
  | .unlock => some { s with scheduler := { s.scheduler with isLocked := s.scheduler.isLocked - 1 } }

/-
This part embeds `schedule` of kernel/scheduler.c on the links of lib/list.c, where each queue is a ring through the
`list` fields of its tasks.
-/

open Library

/-- The nodes are the heads of the queues and the `list` fields of the tasks. -/
inductive Node where
  | head (queue : Queue)
  | list (t : ℕ)
  deriving DecidableEq

/-- What `schedule` reads and writes -/
structure LinkedScheduler where
  config : Config
  task : ℕ → Task
  links : Links Node
  current : ℕ
  needResched : Bool
  killTask : Bool
  isLocked : BitVec 32

section List
variable {Node : Type} [DecidableEq Node]

/-- The head leaves the ring, and comes back behind its first node. -/
def rotateAnticlockwise (links : Links Node) (head : Node) : Links Node :=
  let first := links.next head
  let links := Mm.listDel links head
  Mm.listAdd links (links.next first) head

end List

/-- `list_first_entry`, whose node is a task when the queue is not empty -/
def listFirstEntry (links : Links Node) (queue : Queue) : Option ℕ :=
  match links.next (.head queue) with
  | .list t => some t
  | .head _ => none

/-- The loop of a policy over the heads of its queues -/
def firstOccupied (links : Links Node) (queue : ℕ → Queue) : ℕ → Option ℕ
  | 0 => none
  | i + 1 => if Mm.listIsEmpty links (.head (queue i)) then firstOccupied links queue i else some i

namespace LinkedScheduler

def schedFifoPickTask (s : LinkedScheduler) : Option ℕ :=
  (firstOccupied s.links .fifo s.config.numFifoPriorities).bind fun i => listFirstEntry s.links (.fifo i)

def schedRrPickTask (s : LinkedScheduler) : LinkedScheduler × Option ℕ :=
  match firstOccupied s.links .rr s.config.numRrPriorities with
  | none => (s, none)
  | some i =>
    let links := rotateAnticlockwise s.links (.head (.rr i))
    ({ s with links }, listFirstEntry links (.rr i))

def prefer (s : LinkedScheduler) : Option ℕ → Option ℕ → Option ℕ
  | none, picked => picked
  | some t, none => some t
  | some t, some picked => if (s.task t).priority < (s.task picked).priority then some picked else some t

/-- A task that annihilates itself does not return. -/
def taskAnnihilate (s : LinkedScheduler) (t : ℕ) : Option LinkedScheduler :=
  if t = idleTask then some s
  else if s.current = t then none
  else some { s with links := Mm.listDel s.links (.list t) }

/-- The part of `schedule` after the choice -/
def switchTo (s rotated : LinkedScheduler) (t : ℕ) : Option LinkedScheduler :=
  let next := { rotated with current := t, needResched := false }
  if s.killTask then taskAnnihilate { next with killTask := false } s.current else some next

/-- The result is `none` for a panic. -/
def schedule (s : LinkedScheduler) : Option LinkedScheduler :=
  if s.isLocked ≠ 0 then some s
  else
    let (rotated, picked) := s.schedRrPickTask
    match s.prefer s.schedFifoPickTask picked with
    | none => if (s.task idleTask).running then s.switchTo rotated idleTask else none
    | some t => s.switchTo rotated t

end LinkedScheduler

end Phabos.Sched
