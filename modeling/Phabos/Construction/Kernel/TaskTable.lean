/-
The table of the tasks of kernel/task.c, with the calls that make and end tasks and those that look one up by its id.
-/

import Phabos.Construction.Lib.Hashtable

namespace Phabos.TaskTable
open Function

def ENOMEM : Int := 12

def ESRCH : Int := 3

def ENOSYS : Int := 88

structure Task where
  id : BitVec 32
  maskedInterrupts : List Int
  maskedQueuedSignals : List Int
  queuedSignals : List Int
  deriving DecidableEq, Repr

/-- `task` gives the task objects that are not released, by their addresses. -/
structure State where
  taskTable : Hashtable (BitVec 32) ℕ
  nextTaskId : BitVec 32
  task : ℕ → Option Task
  current : Option ℕ
  killTask : Bool

/-- `task_init` -/
def taskInit : State where
  taskTable := .create uintKeys
  nextTaskId := 0
  task _ := none
  current := none
  killTask := false

/-- The address that `kzalloc` returns, and whether `task_create` and `task_run` find a name and a stack when they test for
them: `astrcpy` has written through a null pointer before the test, and `page_alloc` never returns one. -/
structure Memory where
  kzalloc : Option ℕ
  name : Bool
  stack : Bool
  deriving DecidableEq, Repr

/-- `hashtable_get` returns the null pointer for a key that is not in the table. -/
def findTaskById (s : State) (id : BitVec 32) : Option ℕ := if id.toInt < 0 then some 0 else s.taskTable.get id

/-- `task_create`. The id is used up even when there is no memory for the name. -/
def taskCreate (memory : Memory) (s : State) : Option ℕ × State :=
  match memory.kzalloc with
  | none => (none, s)
  | some t =>
    let id := s.nextTaskId
    let s := { s with nextTaskId := s.nextTaskId + 1 }
    if memory.name then (some t, { s with task := update s.task t (some ⟨id, [], [], []⟩) }) else (none, s)

/-- `task_run`, which releases the task again when there is no stack. -/
def taskRun (memory : Memory) (s : State) : Option ℕ × State :=
  match taskCreate memory s with
  | (none, s) => (none, s)
  | (some t, s) => if memory.stack then (some t, s) else (none, { s with task := update s.task t none })

def taskDestroy (s : State) (t : ℕ) : State := { s with task := update s.task t none }

def taskExit (s : State) : State := { s with killTask := true }

/-- `task_annihilate` of a task at an address -/
def taskAnnihilate (s : State) (t : ℕ) (task : Task) : State :=
  if task.id = 0 then s else if s.current = some t then taskExit s else taskDestroy s t

/-- The end of `schedule`, with the task that the policies have picked -/
def schedule (s : State) (next : ℕ) : State :=
  let saved := s.current
  let s := { s with current := some next }
  if s.killTask then
    let s := { s with killTask := false }
    match saved.bind fun t => (s.task t).map fun task => (t, task) with
    | none => s
    | some (t, task) => taskAnnihilate s t task
  else s

def taskQueueSignal (s : State) (t : ℕ) (sig : Int) (memory : Bool) : Int × State :=
  if memory then
    (0, { s with
      task := update s.task t ((s.task t).map fun task =>
        if sig ∈ task.maskedInterrupts then { task with maskedQueuedSignals := task.maskedQueuedSignals ++ [sig] }
        else { task with queuedSignals := task.queuedSignals ++ [sig] }) })
  else (- ENOMEM, s)

def sysKill (s : State) (pid : BitVec 32) (sig : Int) (memory : Bool) : Option (Int × State) :=
  if pid.toInt ≤ 0 then some (- ENOSYS, s)
  else (findTaskById s pid).map fun t => if t = 0 then (- ESRCH, s) else taskQueueSignal s t sig memory

/-- The task that the `sched_*` calls are about, which return `-ESRCH` where there is none -/
def pidTask (s : State) (pid : BitVec 32) : Option ℕ := if pid ≠ 0 then findTaskById s pid else some (s.current.getD 0)

inductive Action where
  | create (memory : Memory)
  | run (memory : Memory)
  | annihilate (t : ℕ)
  | exit
  | schedule (next : ℕ)
  | kill (pid : BitVec 32) (sig : Int) (memory : Bool)
  deriving DecidableEq, Repr

/-- `kzalloc` returns an address that is not in use. -/
def Memory.isFree (memory : Memory) (s : State) : Bool := memory.kzalloc.all fun t => decide (t ≠ 0) && (s.task t).isNone

def step (s : State) : Action → Option State
  | .create memory => if memory.isFree s then some (taskCreate memory s).2 else none
  | .run memory => if memory.isFree s then some (taskRun memory s).2 else none
  | .annihilate t => (s.task t).map (taskAnnihilate s t)
  | .exit => s.current.map fun _ => taskExit s
  | .schedule next => (s.task next).map fun _ => schedule s next
  | .kill pid sig memory => (sysKill s pid sig memory).map Prod.snd

end Phabos.TaskTable
