import Phabos.Construction.Svc.Daemon
import Phabos.Library.Run

namespace Phabos.Svcd
open Option

/-- The parties that share the lock -/
inductive Party
  | shell
  | worker
  | svcd (task : ℕ)

def Shell.inside : Shell → Bool
  | .startCheck | .startSet _ | .stopCheck | .stopSignal _ => true
  | .idle | .stopWait _ => false

def Worker.inside : Worker → Bool
  | .store _ _ | .signal => true
  | .idle | .lock _ _ => false

def Place.inside : Place → Bool
  | .startup _ | .loopTest | .stopTest | .handleEvents | .cleanup | .finish => true
  | .entry | .condWait | .waiting | .woken | .left => false

/-- A party is inside the critical section. -/
def Daemon.inside (m : Daemon) : Party → Prop
  | .shell => m.shell.inside
  | .worker => m.worker.inside
  | .svcd task => ∃ place ∈ m.svcd task, place.inside

/-- No notification is in hand when a failing startup or the clean-up removes the worker. -/
def Place.settles (m : Daemon) (succeeds : Bool) : Place → Prop
  | .startup .irqEnable => succeeds = false → m.worker = .idle
  | .cleanup => m.worker = .idle
  | _ => True

def Settles (m : Daemon) : Action → Prop
  | .svcd task succeeds => ∀ place ∈ m.svcd task, place.settles m succeeds
  | _ => True

instance (m : Daemon) (succeeds : Bool) : ∀ place : Place, Decidable (place.settles m succeeds)
  | .startup .irqEnable => inferInstanceAs (Decidable (succeeds = false → m.worker = .idle))
  | .cleanup => inferInstanceAs (Decidable (m.worker = .idle))
  | .startup .boardInit | .startup .interfaceEarlyInit | .startup .switchInit | .startup .interfaceInit
  | .startup .eventInit | .entry | .loopTest | .condWait | .waiting | .woken | .stopTest | .handleEvents | .finish
  | .left => inferInstanceAs (Decidable True)

instance (m : Daemon) : ∀ action, Decidable (Settles m action)
  | .svcd task succeeds => inferInstanceAs (Decidable (∀ place ∈ m.svcd task, place.settles m succeeds))
  | .svcdStart | .svcdStop | .shell _ | .mailbox _ _ | .worker _ => inferInstanceAs (Decidable True)

/-- The party that takes a step -/
def Action.party : Action → Party
  | .svcdStart | .svcdStop | .shell _ => .shell
  | .mailbox _ _ | .worker _ => .worker
  | .svcd task _ => .svcd task

/-- Every step, with what it needs -/
inductive Step (board : Board) (m : Daemon) : Action → Daemon → Prop
  | startLocks (here : m.shell = .idle) (free : m.locked = false) :
      Step board m .svcdStart { m with locked := true, shell := .startCheck }
  | stopLocks (here : m.shell = .idle) (free : m.locked = false) :
      Step board m .svcdStop { m with locked := true, shell := .stopCheck }
  | startIsBusy (created : Bool) (here : m.shell = .startCheck) (running : m.state = .running) :
      Step board m (.shell created) { m with locked := false, shell := .idle }
  | startFails (here : m.shell = .startCheck) (stopped : m.state = .stopped) :
      Step board m (.shell false) { m with shell := .idle }
  | startRuns (here : m.shell = .startCheck) (stopped : m.state = .stopped) :
      Step board m (.shell true)
        { m with
          svcd := Function.update m.svcd m.nextTaskId (some .entry)
          nextTaskId := m.nextTaskId + 1
          shell := .startSet m.nextTaskId }
  | startSets (created : Bool) (task : ℕ) (here : m.shell = .startSet task) :
      Step board m (.shell created)
        { m with svcdPid := task, stop := false, state := .running, locked := false, shell := .idle }
  | stopIsIdle (created : Bool) (here : m.shell = .stopCheck) (stopped : m.state = .stopped) :
      Step board m (.shell created) { m with locked := false, shell := .idle }
  | stopAsks (created : Bool) (here : m.shell = .stopCheck) (running : m.state = .running) :
      Step board m (.shell created) { m with stop := true, shell := .stopSignal m.svcdPid }
  | stopSignals (created : Bool) (pid : ℕ) (here : m.shell = .stopSignal pid) :
      Step board m (.shell created) { taskCondSignal m with locked := false, shell := .stopWait pid }
  | stopReturns (created : Bool) (pid : ℕ) (here : m.shell = .stopWait pid) :
      Step board m (.shell created) { m with shell := .idle }
  | mailboxCalled (mail : Mail) (port : UInt8) (here : m.worker = .idle) (listening : m.listening = true) :
      Step board m (.mailbox mail port)
        { m with worker := .lock mail port, journal := m.journal ++ [.mailbox mail port] }
  | mailboxLocks (address : Option ℕ) (mail : Mail) (port : UInt8) (here : m.worker = .lock mail port)
      (free : m.locked = false) : Step board m (.worker address) { m with locked := true, worker := .store mail port }
  | mailboxStores (address : Option ℕ) (mail : Mail) (port : UInt8) (stored : Daemon)
      (here : m.worker = .store mail port) (stores : eventMailbox board m address mail port = some stored) :
      Step board m (.worker address) { stored with worker := .signal }
  | mailboxSignals (address : Option ℕ) (here : m.worker = .signal) :
      Step board m (.worker address) { taskCondSignal m with locked := false, worker := .idle }
  | enters (task : ℕ) (succeeds : Bool) (here : m.svcd task = some .entry) (free : m.locked = false) :
      Step board m (.svcd task succeeds)
        { m.goes task (.startup .boardInit) with locked := true, journal := m.journal ++ [.started] }
  | startsUp (task : ℕ) (succeeds : Bool) (stage : Stage) (started : Daemon)
      (here : m.svcd task = some (.startup stage)) (starts : svcdStartup m task stage succeeds = some started) :
      Step board m (.svcd task succeeds) started
  | stops (task : ℕ) (succeeds : Bool) (here : m.svcd task = some .loopTest ∨ m.svcd task = some .stopTest)
      (asked : m.stop = true) : Step board m (.svcd task succeeds) (m.goes task .cleanup)
  | unlocks (task : ℕ) (succeeds : Bool) (here : m.svcd task = some .loopTest) (goesOn : m.stop = false) :
      Step board m (.svcd task succeeds) { m.goes task .condWait with locked := false }
  | waits (task : ℕ) (succeeds : Bool) (here : m.svcd task = some .condWait) :
      Step board m (.svcd task succeeds) { m.goes task .waiting with cv := m.cv ++ [task] }
  | relocks (task : ℕ) (succeeds : Bool) (here : m.svcd task = some .woken) (free : m.locked = false) :
      Step board m (.svcd task succeeds) { m.goes task .stopTest with locked := true }
  | handlesAp (task : ℕ) (succeeds : Bool) (here : m.svcd task = some .stopTest) (goesOn : m.stop = false)
      (ready : m.apIntfId ≠ 0) (first : m.apInitialized = false) :
      Step board m (.svcd task succeeds)
        { m.goes task (if succeeds then .handleEvents else .cleanup) with
          apInitialized := succeeds
          journal := m.journal ++ [.handleAp succeeds] }
  | passesAp (task : ℕ) (succeeds : Bool) (here : m.svcd task = some .stopTest) (goesOn : m.stop = false)
      (settled : m.apIntfId ≠ 0 → m.apInitialized = true) :
      Step board m (.svcd task succeeds) (m.goes task .handleEvents)
  | handlesEvents (task : ℕ) (succeeds : Bool) (here : m.svcd task = some .handleEvents)
      (ready : m.apInitialized = true) :
      Step board m (.svcd task succeeds) ((svcHandleEvents m.svcEvents m).goes task .loopTest)
  | passesEvents (task : ℕ) (succeeds : Bool) (here : m.svcd task = some .handleEvents)
      (early : m.apInitialized = false) : Step board m (.svcd task succeeds) (m.goes task .loopTest)
  | cleansUp (task : ℕ) (succeeds : Bool) (here : m.svcd task = some .cleanup) :
      Step board m (.svcd task succeeds)
        { m.goes task .finish with sw := false, boardInfo := false, listening := false }
  | finishes (task : ℕ) (succeeds : Bool) (here : m.svcd task = some .finish) :
      Step board m (.svcd task succeeds) { m.goes task .left with state := .stopped, locked := false }
  | ends (task : ℕ) (succeeds : Bool) (here : m.svcd task = some .left) :
      Step board m (.svcd task succeeds) { m with svcd := Function.update m.svcd task none }

section Cases
variable {board : Board} {m next : Daemon} {action : Action}

theorem shellStep_cases {created : Bool} (stepped : shellStep m created = some next) :
    Step board m (.shell created) next := by
  unfold shellStep svcdStart svcdStop at stepped
  split at stepped
  · cases stepped
  · rename_i here
    obtain rfl := some.inj stepped
    split
    · rename_i running
      exact .startIsBusy created here (by cases state : m.state <;> simp_all)
    · rename_i stopped
      cases created with
      | true => exact .startRuns here (not_not.mp stopped)
      | false => exact .startFails here (not_not.mp stopped)
  · rename_i task here
    obtain rfl := some.inj stepped
    exact .startSets created task here
  · rename_i here
    obtain rfl := some.inj stepped
    split
    · rename_i stopped
      exact .stopIsIdle created here (by cases state : m.state <;> simp_all)
    · rename_i running
      exact .stopAsks created here (not_not.mp running)
  · rename_i pid here
    obtain rfl := some.inj stepped
    exact .stopSignals created pid here
  · rename_i pid here
    obtain rfl := some.inj stepped
    exact .stopReturns created pid here

theorem workerStep_cases {address : Option ℕ} (stepped : workerStep board m address = some next) :
    Step board m (.worker address) next := by
  unfold workerStep at stepped
  split at stepped
  · cases stepped
  · rename_i mail port here
    obtain ⟨free, stepped⟩ := ite_none_left_eq_some.mp stepped
    obtain rfl := some.inj stepped
    exact .mailboxLocks address mail port here (Bool.eq_false_iff.mpr free)
  · rename_i mail port here
    obtain ⟨stored, stores, rfl⟩ := map_eq_some_iff.mp stepped
    exact .mailboxStores address mail port stored here stores
  · rename_i here
    obtain rfl := some.inj stepped
    exact .mailboxSignals address here

theorem svcdStep_cases {task : ℕ} {succeeds : Bool} {place : Place} (here : m.svcd task = some place)
    (stepped : svcdStep m task succeeds place = some next) : Step board m (.svcd task succeeds) next := by
  unfold svcdStep at stepped
  cases place with dsimp only at stepped
  | entry =>
    obtain ⟨free, stepped⟩ := ite_none_left_eq_some.mp stepped
    obtain rfl := some.inj stepped
    exact .enters task succeeds here (Bool.eq_false_iff.mpr free)
  | startup stage => exact .startsUp task succeeds stage next here stepped
  | loopTest =>
    split at stepped <;> obtain rfl := some.inj stepped
    · rename_i asked
      exact .stops task succeeds (.inl here) asked
    · rename_i goesOn
      exact .unlocks task succeeds here (Bool.eq_false_iff.mpr goesOn)
  | condWait =>
    obtain rfl := some.inj stepped
    exact .waits task succeeds here
  | waiting => cases stepped
  | woken =>
    obtain ⟨free, stepped⟩ := ite_none_left_eq_some.mp stepped
    obtain rfl := some.inj stepped
    exact .relocks task succeeds here (Bool.eq_false_iff.mpr free)
  | stopTest =>
    split at stepped
    · rename_i asked
      obtain rfl := some.inj stepped
      exact .stops task succeeds (.inr here) asked
    rename_i goesOn
    have goesOn := Bool.eq_false_iff.mpr goesOn
    split at stepped <;> obtain rfl := some.inj stepped
    · rename_i both
      exact .handlesAp task succeeds here goesOn both.1 ((Bool.not_eq_true' _).mp both.2)
    · rename_i settled
      refine .passesAp task succeeds here goesOn fun ready => ?_
      by_contra early
      exact settled ⟨ready, (Bool.not_eq_true' _).mpr (Bool.eq_false_iff.mpr early)⟩
  | handleEvents =>
    obtain rfl := some.inj stepped
    cases ready : m.apInitialized with
    | true => exact .handlesEvents task succeeds here ready
    | false => exact .passesEvents task succeeds here ready
  | cleanup =>
    obtain rfl := some.inj stepped
    exact .cleansUp task succeeds here
  | finish =>
    obtain rfl := some.inj stepped
    exact .finishes task succeeds here
  | left =>
    obtain rfl := some.inj stepped
    exact .ends task succeeds here

/-- A step is one of the kinds of steps, and nothing has faulted before it. -/
theorem step_cases (stepped : step board m action = some next) : m.faulted = false ∧ Step board m action next := by
  unfold step at stepped
  obtain ⟨sound, stepped⟩ := ite_none_left_eq_some.mp stepped
  refine ⟨Bool.eq_false_iff.mpr sound, ?_⟩
  cases action with dsimp only at stepped
  | svcdStart =>
    obtain ⟨both, rfl⟩ := ite_some_none_eq_some.mp stepped
    exact .startLocks both.1 ((Bool.not_eq_true' _).mp both.2)
  | svcdStop =>
    obtain ⟨both, rfl⟩ := ite_some_none_eq_some.mp stepped
    exact .stopLocks both.1 ((Bool.not_eq_true' _).mp both.2)
  | shell created => exact shellStep_cases stepped
  | mailbox mail port =>
    obtain ⟨both, rfl⟩ := ite_some_none_eq_some.mp stepped
    exact .mailboxCalled mail port both.1 both.2
  | worker address => exact workerStep_cases stepped
  | svcd task succeeds =>
    obtain ⟨place, here, stepped⟩ := bind_eq_some_iff.mp stepped
    exact svcdStep_cases here stepped

end Cases

/-- The worker exists with the listener while a svcd task is at the place. -/
def Place.listens : Place → Bool
  | .entry | .startup .boardInit | .startup .interfaceEarlyInit | .startup .switchInit | .startup .interfaceInit
  | .startup .eventInit | .finish | .left => false
  | .startup .irqEnable | .loopTest | .condWait | .waiting | .woken | .stopTest | .handleEvents | .cleanup => true

/-- The place after a stage of `svcd_startup` -/
def Stage.next : Stage → Bool → Place
  | .boardInit, true => .startup .interfaceEarlyInit
  | .interfaceEarlyInit, true => .startup .switchInit
  | .switchInit, true => .startup .interfaceInit
  | .interfaceInit, true => .startup .eventInit
  | .eventInit, _ => .startup .irqEnable
  | .irqEnable, true => .loopTest
  | _, false => .finish

section Frames
variable {board : Board} {m next stored : Daemon} {task : ℕ} {place : Place}

/-- A stage of the startup moves the task and changes what the stage is about. -/
structure Started (m : Daemon) (task : ℕ) (next : Daemon) (place : Place) : Prop where
  inside : place.inside = true
  listening : next.listening = place.listens
  idle : next.listening = false → m.listening = true → m.worker = .idle
  events : next.svcEvents = m.svcEvents ∨ next.svcEvents = []
  moved : next = { m.goes task place with
    sw := next.sw, boardInfo := next.boardInfo, listening := next.listening, svcEvents := next.svcEvents }

theorem svcdStartup_started {stage : Stage} {succeeds : Bool} (listening : m.listening = (Place.startup stage).listens)
    (settles : (Place.startup stage).settles m succeeds) (starts : svcdStartup m task stage succeeds = some next) :
    Started m task next (stage.next succeeds) := by
  unfold svcdStartup at starts
  have quiet (place : (Place.startup stage).listens = false) (on : m.listening = true) : m.worker = .idle := by
    rw [listening, place] at on
    cases on
  cases stage <;> cases succeeds <;> dsimp only at starts
  case irqEnable.false =>
    obtain rfl := some.inj starts
    exact ⟨rfl, rfl, fun _ _ => settles rfl, .inl rfl, rfl⟩
  case irqEnable.true =>
    obtain rfl := some.inj starts
    exact ⟨rfl, listening, fun off on => (Bool.false_ne_true (off.symm.trans on)).elim, .inl rfl, rfl⟩
  case eventInit.false | eventInit.true =>
    obtain rfl := some.inj starts
    exact ⟨rfl, rfl, nofun, .inr rfl, rfl⟩
  all_goals
    obtain rfl := some.inj starts
    exact ⟨rfl, listening, fun _ on => quiet rfl on, .inl rfl, rfl⟩

theorem eventMailbox_stored {address : Option ℕ} {mail : Mail} {port : UInt8}
    (stores : eventMailbox board m address mail port = some stored) : stored = { m with
      apIntfId := stored.apIntfId
      svcEvents := stored.svcEvents
      allocated := stored.allocated
      faulted := stored.faulted } := by
  unfold eventMailbox svcEventCreate at stores
  cases mail with dsimp only at stores
  | readyAp =>
    obtain rfl := some.inj stores
    split <;> rfl
  | readyOther =>
    split at stores
    · obtain rfl := some.inj stores
      rfl
    split at stores
    · cases stores
    split at stores <;> obtain rfl := some.inj stores <;> rfl
  | other =>
    obtain rfl := some.inj stores
    rfl

theorem svcHandleEvents_passed (events : List SvcEvent) (m : Daemon) : svcHandleEvents events m = { m with
    allocated := (svcHandleEvents events m).allocated
    journal := (svcHandleEvents events m).journal
    faulted := (svcHandleEvents events m).faulted } := by
  induction events generalizing m with
  | nil => rfl
  | cons event rest ih =>
    unfold svcHandleEvents
    split
    · rw [ih]
    · rfl

theorem taskCondSignal_signalled (m : Daemon) : taskCondSignal m = { m with
    cv := (taskCondSignal m).cv
    svcd := (taskCondSignal m).svcd
    faulted := (taskCondSignal m).faulted } := by
  unfold taskCondSignal
  cases m.cv <;> rfl

theorem taskCondSignal_nil (empty : m.cv = []) : taskCondSignal m = { m with faulted := true } := by
  unfold taskCondSignal
  rw [empty]

theorem taskCondSignal_intact (waits : m.cv ≠ []) : (taskCondSignal m).faulted = m.faulted := by
  unfold taskCondSignal
  split
  · rename_i empty
    exact (waits empty).elim
  · rfl

theorem taskCondSignal_singleton (one : m.cv = [task]) : taskCondSignal m = { m.goes task .woken with cv := [] } := by
  unfold taskCondSignal
  rw [one]

end Frames

end Phabos.Svcd
