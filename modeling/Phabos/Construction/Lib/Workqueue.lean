import Phabos.Library.Cursor

/-
This file embeds lib/workqueue.c, where each section that the interrupts do not divide is one step.
-/

namespace Phabos.Workqueue

open Library

/-- The places of the thread of a queue in `workqueue_thread` -/
inductive Place
  /-- At the first `semaphore_lock` of the loop -/
  | lock
  /-- Woken up, before `iter` is read -/
  | first
  /-- After `iter` is set, before `niter` is read -/
  | next (iter : Option ℕ)
  /-- At the test of the loop over the list -/
  | test (iter niter : Option ℕ)
  /-- Before `list_del` -/
  | unlink (work : ℕ)
  /-- Before the entry point is called -/
  | call (work : ℕ)
  /-- The entry point was called. -/
  | release (work : ℕ)
  /-- Before `atomic_dec`, with the work item that is done -/
  | count (done : Option ℕ)
  /-- Before the `semaphore_unlock` of the empty semaphore -/
  | unlock
  deriving DecidableEq, Repr

/-- A callback, which is not NULL, and its argument -/
structure Entry where
  entryPoint : ℕ
  data : ℕ
  deriving DecidableEq, Repr

/-- `struct workqueue`, its work items by address, and what has happened. An address names one work item.
`counting`, `locking`, `adding` and `starting` are the calls of `workqueue_schedule` at their next step. -/
structure Queue where
  list : List ℕ
  semaphore : ℕ
  emptySemaphore : ℕ
  workCount : Int
  entry : ℕ → Entry
  isSchedulable : ℕ → Bool
  /-- The watchdog of the work item is active. -/
  watchdog : ℕ → Bool
  delay : ℕ → UInt32
  counting : List ℕ
  locking : List ℕ
  adding : List ℕ
  starting : List ℕ
  thread : Place
  waiting : ℕ
  nextWork : ℕ
  /-- The work items that `work_count` counted, those that are on the list or were, those whose delay expired, those
  whose entry point was called and those that are done, in this order of events -/
  counted : List ℕ
  submitted : List ℕ
  expired : List ℕ
  called : List ℕ
  finished : List ℕ
  /-- The calls of entry points -/
  runs : List Entry

def workqueueCreate : Queue where
  list := []
  semaphore := 0
  emptySemaphore := 1
  workCount := 0
  entry _ := ⟨0, 0⟩
  isSchedulable _ := false
  watchdog _ := false
  delay _ := 0
  counting := []
  locking := []
  adding := []
  starting := []
  thread := .lock
  waiting := 0
  nextWork := 0
  counted := []
  submitted := []
  expired := []
  called := []
  finished := []
  runs := []

/-- A call of `workqueue_schedule` up to `atomic_inc` -/
def workqueueSchedule (m : Queue) (entry : Entry) (delay : UInt32) : Queue :=
  { m with
    entry := Function.update m.entry m.nextWork entry
    isSchedulable := Function.update m.isSchedulable m.nextWork (delay = 0)
    watchdog := Function.update m.watchdog m.nextWork false
    delay := Function.update m.delay m.nextWork delay
    counting := m.counting ++ [m.nextWork]
    nextWork := m.nextWork + 1 }

def workqueueQueue (m : Queue) (entry : Entry) : Queue :=
  workqueueSchedule m entry 0

/-- The call that makes the count one goes on with `semaphore_lock`. -/
def countWork (m : Queue) (work : ℕ) : Queue :=
  let counted := { m with
    workCount := m.workCount + 1
    counting := m.counting.erase work
    counted := m.counted ++ [work] }
  if m.workCount + 1 = 1 then { counted with locking := m.locking ++ [work] }
  else { counted with adding := m.adding ++ [work] }

def addWork (m : Queue) (work : ℕ) : Queue :=
  { m with
    list := m.list ++ [work]
    adding := m.adding.erase work
    starting := m.starting ++ [work]
    submitted := m.submitted ++ [work] }

/-- The end of `workqueue_schedule`. An item without delay is not touched any more, as the thread may have freed it. -/
def startWork (m : Queue) (work : ℕ) : Queue :=
  let started := { m with starting := m.starting.erase work }
  if m.delay work = 0 then { started with semaphore := m.semaphore + 1 }
  else { started with watchdog := Function.update m.watchdog work true }

/-- `watchdog_check_expired` cancels the watchdog and calls this function, both in the interrupt. -/
def workqueueDelayTimeout (m : Queue) (work : ℕ) : Queue :=
  { m with
    watchdog := Function.update m.watchdog work false
    isSchedulable := Function.update m.isSchedulable work true
    semaphore := m.semaphore + 1
    expired := m.expired ++ [work] }

/-- A step of `workqueue_thread` -/
def workqueueThread (m : Queue) : Option Queue :=
  match m.thread with
  | .lock =>
    if m.semaphore = 0 then none
    else some { m with semaphore := m.semaphore - 1, thread := .first }
  | .first => some { m with thread := .next m.list.head? }
  | .next iter => some { m with thread := .test iter (Cursor.next m.list iter) }
  | .test none _ => some { m with thread := .count none }
  | .test (some work) niter =>
    if m.isSchedulable work = true then some { m with thread := .unlink work }
    else some { m with thread := .next niter }
  | .unlink work => some { m with list := m.list.erase work, thread := .call work }
  | .call work =>
    some { m with called := m.called ++ [work], runs := m.runs ++ [m.entry work], thread := .release work }
  | .release work => some { m with watchdog := Function.update m.watchdog work false, thread := .count work }
  | .count done =>
    let counted := { m with workCount := m.workCount - 1, finished := m.finished ++ done.toList }
    -- `atomic_dec` returns an unsigned value.
    if m.workCount - 1 = 0 then some { counted with thread := .unlock }
    else some { counted with thread := .lock }
  | .unlock => some { m with emptySemaphore := m.emptySemaphore + 1, thread := .lock }

inductive Action
  | queue (entry : Entry)
  | schedule (entry : Entry) (delay : UInt32)
  /-- The next step of the call of `workqueue_schedule` for a work item -/
  | proceed (work : ℕ)
  /-- The delay of a work item expires. -/
  | expire (work : ℕ)
  | thread
  | waitEmpty
  | waitDone
  deriving DecidableEq, Repr

/-- The next step of a call of `workqueue_schedule`, where `semaphore_lock` waits for the empty semaphore -/
def proceed (m : Queue) (work : ℕ) : Option Queue :=
  if work ∈ m.counting then some (countWork m work)
  else if work ∈ m.locking then
    if m.emptySemaphore = 0 then none
    else some { m with
      emptySemaphore := m.emptySemaphore - 1
      locking := m.locking.erase work
      adding := m.adding ++ [work] }
  else if work ∈ m.adding then some (addWork m work)
  else if work ∈ m.starting then some (startWork m work)
  else none

def step (m : Queue) : Action → Option Queue
  | .queue entry => some (workqueueQueue m entry)
  | .schedule entry delay => some (workqueueSchedule m entry delay)
  | .proceed work => proceed m work
  | .expire work => if m.watchdog work = true then some (workqueueDelayTimeout m work) else none
  | .thread => workqueueThread m
  | .waitEmpty =>
    if m.emptySemaphore = 0 then none
    else some { m with emptySemaphore := m.emptySemaphore - 1, waiting := m.waiting + 1 }
  | .waitDone =>
    if m.waiting = 0 then none
    else some { m with emptySemaphore := m.emptySemaphore + 1, waiting := m.waiting - 1 }

end Phabos.Workqueue
