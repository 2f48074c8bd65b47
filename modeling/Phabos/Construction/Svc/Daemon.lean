import Mathlib.Data.Nat.Notation
import Mathlib.Logic.Function.Basic

/-
This file embeds the daemon of apps/svc/svc.c with its three parties: the shell (svcd_start and svcd_stop), the
interrupt worker of the switch (event_mailbox) and the svcd tasks (svcd_main).
-/

namespace Phabos.Svcd

def EINVAL : Int := 22

/-- The switch ports of the interfaces of a board, which `interface_get_count` counts in a byte -/
structure Board where
  portids : List UInt8
  few : portids.length < 256

/-- An interface id is the position in the table plus one. -/
def interfaceGetIdByPortid (board : Board) (port : UInt8) : Int :=
  match board.portids.findIdx? (· = port) with
  | some index => index + 1
  | none => - EINVAL

inductive SvcState
  | stopped
  | running
  deriving DecidableEq, Repr

inductive Mail
  | readyAp
  | readyOther
  | other
  deriving DecidableEq, Repr

/-- A `SVC_EVENT_TYPE_READY_OTHER` event, at its address -/
structure SvcEvent where
  address : ℕ
  port : UInt8
  deriving DecidableEq, Repr

/-- The steps of `svcd_startup` that can fail, and `svc_event_init` -/
inductive Stage
  | boardInit
  | interfaceEarlyInit
  | switchInit
  | interfaceInit
  | eventInit
  | irqEnable
  deriving DecidableEq, Repr

/-- The places of a svcd task in `svcd_main` -/
inductive Place
  /-- Before the first `mutex_lock` -/
  | entry
  | startup (stage : Stage)
  /-- At the test of the loop -/
  | loopTest
  /-- In `task_cond_wait`, after `mutex_unlock` -/
  | condWait
  /-- On the wait list of the condition -/
  | waiting
  /-- Taken off the wait list, before the `mutex_lock` of `task_cond_wait` -/
  | woken
  /-- After `task_cond_wait` -/
  | stopTest
  | handleEvents
  | cleanup
  /-- At `done` -/
  | finish
  /-- Out of `svcd_main`, before the task ends -/
  | left
  deriving DecidableEq, Repr

/-- The places of the shell in `svcd_start` and `svcd_stop`, all but the last one with the lock -/
inductive Shell
  | idle
  | startCheck
  | startSet (task : ℕ)
  | stopCheck
  | stopSignal (pid : ℕ)
  | stopWait (pid : ℕ)
  deriving DecidableEq, Repr

/-- The places of the worker in `event_mailbox`. It is at its `mutex_lock` from the interrupt on. -/
inductive Worker
  | idle
  | lock (mail : Mail) (port : UInt8)
  | store (mail : Mail) (port : UInt8)
  | signal
  deriving DecidableEq, Repr

inductive Entry
  /-- A svcd task has the lock for the first time. -/
  | started
  | mailbox (mail : Mail) (port : UInt8)
  | handleAp (succeeds : Bool)
  | handleModuleReady (port : UInt8)
  deriving DecidableEq, Repr

/-- `struct svc` with `svc_events` and the parties. `allocated` are the addresses of the events that are not freed,
`listening` is set while the worker exists with the listener, and `journal` keeps what has happened. -/
structure Daemon where
  sw : Bool
  boardInfo : Bool
  state : SvcState
  stop : Bool
  svcdPid : ℕ
  locked : Bool
  cv : List ℕ
  apIntfId : UInt8
  apInitialized : Bool
  svcEvents : List SvcEvent
  allocated : ℕ → Bool
  listening : Bool
  shell : Shell
  worker : Worker
  svcd : ℕ → Option Place
  nextTaskId : ℕ
  journal : List Entry
  faulted : Bool

/-- The state before the `svcd_start` of `svc_init` -/
def svcInit (nextTaskId : ℕ) : Daemon where
  sw := false
  boardInfo := false
  state := .stopped
  stop := false
  svcdPid := 0
  locked := false
  cv := []
  apIntfId := 0
  apInitialized := false
  svcEvents := []
  allocated _ := false
  listening := false
  shell := .idle
  worker := .idle
  svcd _ := none
  nextTaskId := nextTaskId
  journal := []
  faulted := false

def Daemon.goes (m : Daemon) (task : ℕ) (place : Place) : Daemon :=
  { m with svcd := Function.update m.svcd task (some place) }

/-- The first entry of an empty list is not a task: what `task_cond_signal` then enqueues is a part of `the_svc`. -/
def taskCondSignal (m : Daemon) : Daemon :=
  match m.cv with
  | [] => { m with faulted := true }
  | task :: rest => { m.goes task .woken with cv := rest }

/-- The address is what `malloc` returns. -/
def svcEventCreate (m : Daemon) (port : UInt8) : Option ℕ → Option Daemon
  -- The message about the failure is followed by a write through the null pointer.
  | none => some { m with faulted := true }
  | some address =>
    if m.allocated address then none
    -- The event would be linked a second time.
    else if address ∈ m.svcEvents.map (·.address) then some { m with faulted := true }
    else
      some { m with
        allocated := Function.update m.allocated address true
        svcEvents := m.svcEvents ++ [⟨address, port⟩] }

/-- `event_mailbox` between `mutex_lock` and `task_cond_signal` -/
def eventMailbox (board : Board) (m : Daemon) (address : Option ℕ) (mail : Mail) (port : UInt8) : Option Daemon :=
  match mail with
  | .readyAp =>
    let rc := interfaceGetIdByPortid board port
    some (if rc < 0 then m else { m with apIntfId := UInt8.ofNat rc.toNat })
  | .readyOther => svcEventCreate m port address
  | .other => some m

/-- The loop of `svc_handle_events` over its events, which stay on the list. One that has been freed is used and freed
again. -/
def svcHandleEvents : List SvcEvent → Daemon → Daemon
  | [], m => m
  | event :: rest, m =>
    if m.allocated event.address then
      svcHandleEvents rest { m with
        journal := m.journal ++ [.handleModuleReady event.port]
        allocated := Function.update m.allocated event.address false }
    else { m with faulted := true }

/-- A stage of `svcd_startup` with the error exit that follows its failure. `svc_event_init` does not fail. `switch_exit`
does not wait for the worker: `find_task_by_id` finds no task, and `task_wait` returns at once. An idle worker ends there. -/
def svcdStartup (m : Daemon) (task : ℕ) (stage : Stage) (succeeds : Bool) : Option Daemon :=
  match stage, succeeds with
  | .boardInit, true => some { m.goes task (.startup .interfaceEarlyInit) with boardInfo := true }
  | .boardInit, false => some (m.goes task .finish)
  | .interfaceEarlyInit, true => some (m.goes task (.startup .switchInit))
  | .interfaceEarlyInit, false => some (m.goes task .finish)
  | .switchInit, true => some { m.goes task (.startup .interfaceInit) with sw := true }
  | .switchInit, false => some (m.goes task .finish)
  | .interfaceInit, true => some (m.goes task (.startup .eventInit))
  | .interfaceInit, false => some { m.goes task .finish with sw := false }
  | .eventInit, _ => some { m.goes task (.startup .irqEnable) with svcEvents := [], listening := true }
  | .irqEnable, true => some (m.goes task .loopTest)
  | .irqEnable, false => some { m.goes task .finish with sw := false, listening := false }

/-- A step of `svcd_main`. `succeeds` is the result of the stage of the startup, or of `svc_handle_ap`. -/
def svcdStep (m : Daemon) (task : ℕ) (succeeds : Bool) : Place → Option Daemon
  | .entry =>
    if m.locked then none
    else some { m.goes task (.startup .boardInit) with locked := true, journal := m.journal ++ [.started] }
  | .startup stage => svcdStartup m task stage succeeds
  | .loopTest =>
    if m.stop then some (m.goes task .cleanup) else some { m.goes task .condWait with locked := false }
  | .condWait => some { m.goes task .waiting with cv := m.cv ++ [task] }
  | .waiting => none
  | .woken => if m.locked then none else some { m.goes task .stopTest with locked := true }
  | .stopTest =>
    if m.stop then some (m.goes task .cleanup)
    else if m.apIntfId ≠ 0 ∧ !m.apInitialized then
      some { m.goes task (if succeeds then .handleEvents else .cleanup) with
        apInitialized := succeeds
        journal := m.journal ++ [.handleAp succeeds] }
    else some (m.goes task .handleEvents)
  | .handleEvents => some ((if m.apInitialized then svcHandleEvents m.svcEvents m else m).goes task .loopTest)
  | .cleanup => some { m.goes task .finish with sw := false, boardInfo := false, listening := false }
  | .finish => some { m.goes task .left with state := .stopped, locked := false }
  | .left => some { m with svcd := Function.update m.svcd task none }

/-- `svcd_start` from its test of the state up to `task_run`, which creates a task if it can -/
def svcdStart (m : Daemon) (created : Bool) : Daemon :=
  if m.state ≠ .stopped then { m with locked := false, shell := .idle }
  else if created then
    { m with
      svcd := Function.update m.svcd m.nextTaskId (some .entry)
      nextTaskId := m.nextTaskId + 1
      shell := .startSet m.nextTaskId }
  -- The lock stays locked.
  else { m with shell := .idle }

/-- `svcd_stop` up to its signal -/
def svcdStop (m : Daemon) : Daemon :=
  if m.state ≠ .running then { m with locked := false, shell := .idle }
  else { m with stop := true, shell := .stopSignal m.svcdPid }

def shellStep (m : Daemon) (created : Bool) : Option Daemon :=
  match m.shell with
  | .idle => none
  | .startCheck => some (svcdStart m created)
  | .startSet task => some { m with svcdPid := task, stop := false, state := .running, locked := false, shell := .idle }
  | .stopCheck => some (svcdStop m)
  | .stopSignal pid => some { taskCondSignal m with locked := false, shell := .stopWait pid }
  -- `task_wait` returns at once.
  | .stopWait _ => some { m with shell := .idle }

def workerStep (board : Board) (m : Daemon) (address : Option ℕ) : Option Daemon :=
  match m.worker with
  | .idle => none
  | .lock mail port => if m.locked then none else some { m with locked := true, worker := .store mail port }
  | .store mail port =>
    (eventMailbox board m address mail port).map fun stored => { stored with worker := .signal }
  | .signal => some { taskCondSignal m with locked := false, worker := .idle }

inductive Action
  /-- `svcd_start`, with the lock -/
  | svcdStart
  /-- `svcd_stop`, with the lock -/
  | svcdStop
  | shell (created : Bool)
  /-- The worker has an interrupt and calls `event_mailbox`. -/
  | mailbox (mail : Mail) (port : UInt8)
  | worker (address : Option ℕ)
  | svcd (task : ℕ) (succeeds : Bool)
  deriving DecidableEq, Repr

def step (board : Board) (m : Daemon) (action : Action) : Option Daemon :=
  if m.faulted then none
  else
    match action with
    | .svcdStart =>
      if m.shell = .idle ∧ !m.locked then some { m with locked := true, shell := .startCheck } else none
    | .svcdStop =>
      if m.shell = .idle ∧ !m.locked then some { m with locked := true, shell := .stopCheck } else none
    | .shell created => shellStep m created
    | .mailbox mail port =>
      if m.worker = .idle ∧ m.listening then
        some { m with worker := .lock mail port, journal := m.journal ++ [.mailbox mail port] }
      else none
    | .worker address => workerStep board m address
    | .svcd task succeeds => (m.svcd task).bind fun place => svcdStep m task succeeds place

end Phabos.Svcd
