import Phabos.Proof.Svc.DaemonPlaces

namespace Phabos.Svcd
open Library Function List

/-- The ports of the notifications about modules, in the order of their arrival -/
def notified (journal : List Entry) : List UInt8 :=
  journal.filterMap fun
    | .mailbox .readyOther port => some port
    | _ => none

/-- The ports for which `svc_handle_module_ready` has been called -/
def handled (journal : List Entry) : List UInt8 :=
  journal.filterMap fun
    | .handleModuleReady port => some port
    | _ => none

/-- The notification that has not reached the list yet -/
def Worker.inHand : Worker → List UInt8
  | .lock .readyOther port | .store .readyOther port => [port]
  | _ => []

/-- The ports of the events of a list that have not been freed -/
def pending (events : List SvcEvent) (allocated : ℕ → Bool) : List UInt8 :=
  (events.filter fun event => allocated event.address).map (·.port)

/-- `svc_handle_ap` has succeeded before each call of `svc_handle_module_ready`. -/
def Announced (journal : List Entry) : Prop :=
  ∀ before port after, journal = before ++ .handleModuleReady port :: after → .handleAp true ∈ before

/-- Each notification is handled once and in order, none before the AP is initialised. While the daemon is blocked the
list has the events that have not been handled, and none when the AP is initialised and no notification is on its way
to its signal. -/
structure Delivered (m : Daemon) : Prop where
  intact : m.faulted = false
  once : handled m.journal ++ pending m.svcEvents m.allocated ++ m.worker.inHand = notified m.journal
  announced : Announced m.journal
  blocked : ∀ task, m.svcd task = some .waiting → (∀ event ∈ m.svcEvents, m.allocated event.address = true) ∧
    handled m.journal ++ m.svcEvents.map (·.port) ++ m.worker.inHand = notified m.journal
  complete : ∀ task, m.svcd task = some .waiting → m.apInitialized = true → m.worker ≠ .signal → m.svcEvents = []

/-- The daemon is not stopped, `svc_handle_ap` succeeds, events can be allocated, and no notification is in hand when a
startup fails. -/
def Served (m : Daemon) : Action → Prop
  | .svcdStop => False
  | .worker address => address ≠ none
  | .svcd task succeeds => (m.svcd task = some .stopTest → succeeds = true) ∧ Settles m (.svcd task succeeds)
  | _ => True

/-- A signal finds the daemon on the wait list, and the daemon does not wait again after a pass that found events. -/
def Unharmed (m : Daemon) : Action → Prop
  | .worker _ => m.worker = .signal → m.cv ≠ []
  | .svcd task _ => m.svcd task = some .loopTest → m.apInitialized = true → m.svcEvents = []
  | _ => True

instance (m : Daemon) : ∀ action, Decidable (Served m action)
  | .svcdStop => inferInstanceAs (Decidable False)
  | .worker address => inferInstanceAs (Decidable (address ≠ none))
  | .svcd task succeeds => inferInstanceAs
      (Decidable ((m.svcd task = some .stopTest → succeeds = true) ∧ Settles m (.svcd task succeeds)))
  | .svcdStart | .shell _ | .mailbox _ _ => inferInstanceAs (Decidable True)

instance (m : Daemon) : ∀ action, Decidable (Unharmed m action)
  | .worker _ => inferInstanceAs (Decidable (m.worker = .signal → m.cv ≠ []))
  | .svcd task _ =>
    inferInstanceAs (Decidable (m.svcd task = some .loopTest → m.apInitialized = true → m.svcEvents = []))
  | .svcdStart | .svcdStop | .shell _ | .mailbox _ _ => inferInstanceAs (Decidable True)

theorem Served.settles {m : Daemon} {action : Action} (served : Served m action) : Settles m action := by
  cases action with
  | svcd task succeeds => exact served.2
  | _ => trivial

section Journal
variable {journal : List Entry} {entry : Entry}

theorem handled_append (later : List Entry) : handled (journal ++ later) = handled journal ++ handled later :=
  filterMap_append

theorem notified_append (later : List Entry) : notified (journal ++ later) = notified journal ++ notified later :=
  filterMap_append

theorem Announced.concat (announced : Announced journal)
    (first : ∀ port, entry = .handleModuleReady port → .handleAp true ∈ journal) : Announced (journal ++ [entry]) := by
  intro before port after same
  rcases eq_nil_or_concat after with rfl | ⟨rest, last, rfl⟩
  · obtain ⟨rfl, own⟩ := append_inj' same rfl
    exact first port (head_eq_of_cons_eq own)
  · rw [concat_eq_append, ← cons_append, ← append_assoc] at same
    exact announced before port rest (append_inj' same rfl).1

theorem Announced.append {later : List Entry} (announced : Announced journal) (first : .handleAp true ∈ journal) :
    Announced (journal ++ later) := by
  induction later generalizing journal with
  | nil => exact (append_nil journal).symm ▸ announced
  | cons entry later ih =>
    have next := ih (announced.concat fun _ _ => first) (mem_append_left [entry] first)
    rwa [append_assoc] at next

end Journal

section Events
variable {board : Board} {m : Daemon} {events : List SvcEvent} {allocated : ℕ → Bool}

/-- All events of a list are live, and they are at different addresses. -/
structure AllLive (events : List SvcEvent) (allocated : ℕ → Bool) : Prop where
  live : ∀ event ∈ events, allocated event.address = true
  distinct : (events.map (·.address)).Nodup

theorem AllLive.pending (live : AllLive events allocated) : pending events allocated = events.map (·.port) := by
  unfold Svcd.pending
  rw [filter_eq_self.mpr live.live]

theorem allLive_nil (allocated : ℕ → Bool) : AllLive [] allocated := ⟨nofun, nodup_nil⟩

theorem svcHandleEvents_freed (events : List SvcEvent) {address : ℕ} (freed : m.allocated address = false) :
    (svcHandleEvents events m).allocated address = false := by
  induction events generalizing m with
  | nil => exact freed
  | cons event rest ih =>
    unfold svcHandleEvents
    split
    · refine ih ?_
      dsimp only
      rw [update_apply]
      split
      · rfl
      · exact freed
    · exact freed

theorem svcHandleEvents_live (live : AllLive events m.allocated) :
    (svcHandleEvents events m).faulted = m.faulted ∧
      (svcHandleEvents events m).journal = m.journal ++ events.map (fun event => .handleModuleReady event.port) ∧
      ∀ event ∈ events, (svcHandleEvents events m).allocated event.address = false := by
  induction events generalizing m with
  | nil => exact ⟨rfl, (append_nil _).symm, nofun⟩
  | cons event rest ih =>
    obtain ⟨live, distinct⟩ := live
    obtain ⟨fresh, distinct⟩ := nodup_cons.mp distinct
    unfold svcHandleEvents
    rw [if_pos (live event mem_cons_self)]
    have still : ∀ other ∈ rest, update m.allocated event.address false other.address = true := by
      intro other there
      rw [update_of_ne]
      · exact live other (mem_cons_of_mem _ there)
      · exact fun same => fresh (mem_map.mpr ⟨other, there, same⟩)
    obtain ⟨faulted, journal, freed⟩ := ih (m := { m with
      journal := m.journal ++ [.handleModuleReady event.port]
      allocated := update m.allocated event.address false }) ⟨still, distinct⟩
    refine ⟨faulted, ?_, forall_mem_cons.mpr ⟨?_, freed⟩⟩
    · rw [journal, append_assoc]
      rfl
    · exact svcHandleEvents_freed rest (update_self ..)

theorem svcEventCreate_live {stored : Daemon} {port : UInt8} {address : ℕ} (live : AllLive m.svcEvents m.allocated)
    (stores : svcEventCreate m port (some address) = some stored) :
    stored.faulted = m.faulted ∧ AllLive stored.svcEvents stored.allocated ∧ stored.svcEvents = m.svcEvents ++ [⟨address, port⟩] := by
  unfold svcEventCreate at stores
  dsimp only at stores
  split at stores
  · cases stores
  rename_i free
  have elsewhere : ∀ event ∈ m.svcEvents, event.address ≠ address := by
    rintro event there rfl
    exact free (live.live event there)
  split at stores
  · rename_i linked
    obtain ⟨event, there, same⟩ := mem_map.mp linked
    exact (elsewhere event there same).elim
  · rename_i absent
    obtain rfl := Option.some.inj stores
    refine ⟨rfl, ⟨fun event there => ?_, ?_⟩, rfl⟩
    · rcases mem_append.mp there with old | new
      · exact (update_of_ne (elsewhere event old) ..).trans (live.live event old)
      · rw [mem_singleton.mp new]
        exact update_self ..
    · rw [map_append]
      refine nodup_append.mpr ⟨live.distinct, pairwise_singleton _ _, fun one there two new => ?_⟩
      rw [mem_singleton.mp new]
      rintro rfl
      exact absent there

end Events

/-- What holds of the list while the daemon is at a place -/
def Place.tracks (events : List SvcEvent) (allocated : ℕ → Bool) (initialised : Bool) (worker : Worker) : Place → Prop
  | .entry | .startup _ | .finish | .left => events = []
  -- After a pass the list has the events that it has freed.
  | .loopTest => (initialised = true → pending events allocated = []) ∧ (initialised = false → AllLive events allocated)
  | .condWait | .waiting => AllLive events allocated ∧ (initialised = true → worker ≠ .signal → events = [])
  | .woken | .stopTest | .handleEvents => AllLive events allocated
  | .cleanup => False

/-- The shell is in `svcd_stop`. -/
def Shell.asks : Shell → Bool
  | .stopCheck | .stopSignal _ | .stopWait _ => true
  | .idle | .startCheck | .startSet _ => false

/-- What holds in the runs of the daemon that is not stopped -/
structure Tracked (m : Daemon) : Prop where
  sound : Sound m
  intact : m.faulted = false
  stop : m.stop = false
  asks : m.shell.asks = false
  once : handled m.journal ++ pending m.svcEvents m.allocated ++ m.worker.inHand = notified m.journal
  announced : Announced m.journal
  initialised : m.apInitialized = true → .handleAp true ∈ m.journal
  place : m.Holds (Place.tracks m.svcEvents m.allocated m.apInitialized m.worker)

section Tracked
variable {board : Board} {m next : Daemon} {action : Action}

/-- Events that are tracked are delivered once. -/
theorem Tracked.delivered (tracked : Tracked m) : Delivered m := by
  have blocked {task : ℕ} (there : m.svcd task = some .waiting) :
      AllLive m.svcEvents m.allocated ∧ (m.apInitialized = true → m.worker ≠ .signal → m.svcEvents = []) :=
    tracked.place.active task .waiting (tracked.sound.up there nofun)
  refine ⟨tracked.intact, tracked.once, tracked.announced, fun task there => ?_, fun task there => (blocked there).2⟩
  have live := (blocked there).1
  refine ⟨live.live, ?_⟩
  rw [← live.pending]
  exact tracked.once

theorem Tracked.shell (tracked : Tracked m) (stepped : Step board m action next) (party : action.party = .shell)
    (served : Served m action) : Tracked next := by
  have later := tracked.sound.step stepped served.settles
  have asking {place : Shell} (here : m.shell = place) (asks : place.asks = true) : False := by
    have never := tracked.asks
    rw [here, asks] at never
    cases never
  cases stepped with
  | startLocks here free | startIsBusy _ here running | startFails here stopped =>
    have place := tracked.sound.holds_same later rfl tracked.place fun _ => id
    exact { tracked with sound := later, asks := rfl, place }
  | stopLocks here free => cases served
  | startRuns here stopped =>
    exact { tracked with
      sound := later
      asks := rfl
      place := tracked.sound.holds_created later here stopped rfl tracked.place id }
  | startSets _ task here =>
    exact ⟨later, tracked.intact, rfl, rfl, tracked.once, tracked.announced, tracked.initialised,
      tracked.sound.holds_same later rfl tracked.place fun _ => id⟩
  | stopIsIdle _ here | stopAsks _ here | stopSignals _ pid here | stopReturns _ _ here => exact (asking here rfl).elim
  | _ => cases party

theorem tracks_worker {events : List SvcEvent} {allocated : ℕ → Bool} {initialised : Bool} {worker worker' : Worker}
    (signals : worker' ≠ .signal → worker ≠ .signal) (place : Place)
    (tracks : place.tracks events allocated initialised worker) : place.tracks events allocated initialised worker' := by
  cases place with
  | condWait | waiting => exact ⟨tracks.1, fun ready calm => tracks.2 ready (signals calm)⟩
  | _ => exact tracks

theorem Tracked.stores (tracked : Tracked m) {address : ℕ} {mail : Mail} {port : UInt8} {stored : Daemon}
    (here : m.worker = .store mail port) (stores : eventMailbox board m (some address) mail port = some stored) :
    stored.faulted = false ∧
      handled m.journal ++ pending stored.svcEvents stored.allocated = notified m.journal ∧
      stored.apInitialized = m.apInitialized ∧
      m.Holds (Place.tracks stored.svcEvents stored.allocated m.apInitialized .signal) := by
  have once := tracked.once
  have inside : m.worker.inside = true := by rw [here]; rfl
  rw [here] at once
  have same (quiet : (Worker.store mail port).inHand = []) (next : Daemon) (faulted : next.faulted = m.faulted)
      (events : next.svcEvents = m.svcEvents) (allocated : next.allocated = m.allocated)
      (initialised : next.apInitialized = m.apInitialized) : next.faulted = false ∧
      handled m.journal ++ pending next.svcEvents next.allocated = notified m.journal ∧
      next.apInitialized = m.apInitialized ∧
      m.Holds (Place.tracks next.svcEvents next.allocated m.apInitialized .signal) := by
    rw [quiet, append_nil] at once
    rw [events, allocated]
    exact ⟨faulted.trans tracked.intact, once, initialised,
      tracked.sound.holds_same tracked.sound rfl tracked.place (tracks_worker fun calm => (calm rfl).elim)⟩
  cases mail with
  | readyAp =>
    unfold eventMailbox at stores
    obtain rfl := Option.some.inj stores
    split
    · exact same rfl m rfl rfl rfl rfl
    · exact same rfl _ rfl rfl rfl rfl
  | other =>
    unfold eventMailbox at stores
    obtain rfl := Option.some.inj stores
    exact same rfl m rfl rfl rfl rfl
  | readyOther =>
    obtain ⟨task, place, up, outside⟩ := tracked.sound.calling inside
    have now := tracked.place.active task place up
    have live : AllLive m.svcEvents m.allocated := by
      rcases outside with rfl | rfl | rfl
      · exact now.1
      · exact now.1
      · exact now
    have frame := eventMailbox_stored stores
    obtain ⟨faulted, later, events⟩ := svcEventCreate_live live stores
    refine ⟨faulted.trans tracked.intact, ?_, ?_, up.holds ?_⟩
    · rw [later.pending, events, map_append, ← append_assoc]
      rw [live.pending] at once
      exact once
    · exact (congrArg Daemon.apInitialized frame :)
    · rcases outside with rfl | rfl | rfl
      · exact ⟨later, fun _ calm => (calm rfl).elim⟩
      · exact ⟨later, fun _ calm => (calm rfl).elim⟩
      · exact later

theorem Tracked.worker (tracked : Tracked m) (stepped : Step board m action next) (party : action.party = .worker)
    (served : Served m action) (unharmed : Unharmed m action) : Tracked next := by
  have later := tracked.sound.step stepped served.settles
  have once := tracked.once
  cases stepped with
  | mailboxCalled mail port here listening =>
    rw [here] at once
    refine ⟨later, tracked.intact, tracked.stop, tracked.asks, ?_, tracked.announced.concat nofun,
      fun ready => mem_append_left _ (tracked.initialised ready),
      tracked.sound.holds_same later rfl tracked.place (tracks_worker fun _ => ?_)⟩
    · dsimp only
      rw [handled_append, notified_append, ← once]
      cases mail with
      | readyOther | readyAp | other => simp only [handled, notified, Worker.inHand, filterMap_cons, filterMap_nil,
          append_nil]
    · rw [here]
      exact nofun
  | mailboxLocks address mail port here free =>
    rw [here] at once
    refine ⟨later, tracked.intact, tracked.stop, tracked.asks, ?_, tracked.announced, tracked.initialised,
      tracked.sound.holds_same later rfl tracked.place (tracks_worker fun _ => ?_)⟩
    · cases mail <;> exact once
    · rw [here]
      exact nofun
  | mailboxStores address mail port stored here stores =>
    cases address with
    | none => exact (served rfl).elim
    | some address =>
      have frame := eventMailbox_stored stores
      have journal : stored.journal = m.journal := (congrArg Daemon.journal frame :)
      have shell : stored.shell = m.shell := (congrArg Daemon.shell frame :)
      obtain ⟨intact, once, initialised, place⟩ := tracked.stores here stores
      refine ⟨later, intact, (congrArg Daemon.stop frame :).trans tracked.stop, ?_, ?_, ?_, ?_, ?_⟩
      · dsimp only
        rw [shell]
        exact tracked.asks
      · dsimp only
        rw [journal, once]
        exact append_nil _
      · exact journal ▸ tracked.announced
      · dsimp only
        rw [journal, initialised]
        exact tracked.initialised
      · refine tracked.sound.holds_same later (congrArg Daemon.svcd frame :) place fun place tracks => ?_
        dsimp only
        rw [initialised]
        exact tracks
  | mailboxSignals address here =>
    have frame := taskCondSignal_signalled m
    have journal : (taskCondSignal m).journal = m.journal := (congrArg Daemon.journal frame :)
    have shell : (taskCondSignal m).shell = m.shell := (congrArg Daemon.shell frame :)
    rw [here] at once
    refine ⟨later, (taskCondSignal_intact (unharmed here)).trans tracked.intact,
      (congrArg Daemon.stop frame :).trans tracked.stop, ?_, ?_, ?_, ?_, ?_⟩
    · dsimp only
      rw [shell]
      exact tracked.asks
    · rw [frame]
      exact once
    · exact journal ▸ tracked.announced
    · rw [frame]
      exact tracked.initialised
    · refine tracked.sound.holds_signal later rfl (unharmed here) tracked.place fun tracks => ?_
      rw [frame]
      exact tracks.1
  | _ => cases party

theorem Tracked.svcd (tracked : Tracked m) {task : ℕ} {succeeds : Bool}
    (stepped : Step board m (.svcd task succeeds) next) (served : Served m (.svcd task succeeds))
    (unharmed : Unharmed m (.svcd task succeeds)) : Tracked next := by
  have later := tracked.sound.step stepped served.settles
  have known {place : Place} (here : m.svcd task = some place) (active : place ≠ .left) :
      place.tracks m.svcEvents m.allocated m.apInitialized m.worker :=
    tracked.place.active task place (tracked.sound.up here active)
  cases stepped with
  | enters _ _ here free =>
    have tracks := known here nofun
    refine ⟨later, tracked.intact, tracked.stop, tracked.asks, ?_, tracked.announced.concat nofun,
      fun ready => mem_append_left _ (tracked.initialised ready),
      tracked.sound.holds_goes later here nofun rfl tracks⟩
    dsimp only
    rw [handled_append, notified_append]
    exact (congrArg (· ++ _ ++ _) (append_nil _)).trans (tracked.once.trans (append_nil _).symm)
  | startsUp _ _ stage _ here starts =>
    obtain ⟨-, -, -, events, moved⟩ := svcdStartup_started (tracked.sound.up here nofun).listening (served.2 _ here) starts
    have none : m.svcEvents = [] := known here nofun
    have still : next.svcEvents = [] := events.elim (fun same => same.trans none) id
    have tracks : (stage.next succeeds).tracks next.svcEvents m.allocated m.apInitialized m.worker := by
      rw [still]
      cases stage <;> cases succeeds <;> first | exact rfl | exact ⟨fun _ => rfl, fun _ => allLive_nil _⟩
    have once := tracked.once
    rw [none, ← still] at once
    have place := tracked.sound.holds_goes later here nofun (congrArg Daemon.svcd moved :) tracks
    rw [moved] at later place ⊢
    exact { tracked with sound := later, once, place }
  | stops _ _ here asked =>
    rw [tracked.stop] at asked
    cases asked
  | unlocks _ _ here goesOn =>
    have tracks := known here nofun
    refine ⟨later, tracked.intact, tracked.stop, tracked.asks, tracked.once, tracked.announced, tracked.initialised,
      tracked.sound.holds_goes later here nofun rfl ⟨?_, fun ready _ => unharmed here ready⟩⟩
    cases ready : m.apInitialized with
    | true =>
      have none : m.svcEvents = [] := unharmed here ready
      exact none ▸ allLive_nil _
    | false => exact tracks.2 ready
  | handlesAp _ _ here goesOn ready first =>
    have tracks := known here nofun
    obtain rfl : succeeds = true := served.1 here
    refine ⟨later, tracked.intact, tracked.stop, tracked.asks, ?_, tracked.announced.concat nofun,
      fun _ => mem_append_right _ mem_cons_self,
      tracked.sound.holds_goes later here nofun rfl tracks⟩
    dsimp only
    rw [handled_append, notified_append]
    exact (congrArg (· ++ _ ++ _) (append_nil _)).trans (tracked.once.trans (append_nil _).symm)
  | handlesEvents _ _ here ready =>
    have live : AllLive m.svcEvents m.allocated := known here nofun
    obtain ⟨intact, journal, freed⟩ := svcHandleEvents_live live
    have gone : pending m.svcEvents (svcHandleEvents m.svcEvents m).allocated = [] := by
      unfold pending
      rw [map_eq_nil_iff, filter_eq_nil_iff]
      exact fun event there => Bool.eq_false_iff.mp (freed event there)
    have once := tracked.once
    rw [live.pending] at once
    rw [svcHandleEvents_passed] at later ⊢
    refine ⟨later, intact.trans tracked.intact, tracked.stop, tracked.asks, ?_, ?_, fun _ => ?_, ?_⟩
    · change handled (svcHandleEvents m.svcEvents m).journal ++
        pending m.svcEvents (svcHandleEvents m.svcEvents m).allocated ++ m.worker.inHand =
          notified (svcHandleEvents m.svcEvents m).journal
      have ports : handled (m.svcEvents.map fun event => .handleModuleReady event.port) =
          m.svcEvents.map (·.port) := by
        unfold handled
        rw [filterMap_map]
        exact congrFun filterMap_eq_map _
      have none : notified (m.svcEvents.map fun event => .handleModuleReady event.port) = [] := by
        unfold notified
        rw [filterMap_map, filterMap_eq_nil_iff]
        exact fun _ _ => rfl
      rw [gone, journal, handled_append, notified_append, ports, none, append_nil, append_nil]
      exact once
    · change Announced (svcHandleEvents m.svcEvents m).journal
      rw [journal]
      exact tracked.announced.append (tracked.initialised ready)
    · change .handleAp true ∈ (svcHandleEvents m.svcEvents m).journal
      rw [journal]
      exact mem_append_left _ (tracked.initialised ready)
    · refine tracked.sound.holds_goes later here nofun rfl ⟨fun _ => gone, fun early => ?_⟩
      cases ready.symm.trans early
  | passesEvents _ _ here early =>
    have tracks := known here nofun
    refine ⟨later, tracked.intact, tracked.stop, tracked.asks, tracked.once, tracked.announced, tracked.initialised,
      tracked.sound.holds_goes later here nofun rfl ⟨fun ready => ?_, fun _ => tracks⟩⟩
    cases ready.symm.trans early
  | cleansUp _ _ here => exact (known here nofun).elim
  | waits _ _ here | relocks _ _ here | passesAp _ _ here | finishes _ _ here =>
    have tracks := known here nofun
    exact { tracked with sound := later, place := tracked.sound.holds_goes later here nofun rfl tracks }
  | ends _ _ here =>
    exact { tracked with sound := later, place := tracked.sound.holds_ends later here rfl tracked.place fun _ => id }

/-- A guarded step keeps each event queued until it is handled. -/
theorem Tracked.step (tracked : Tracked m) (guarded : Served m action ∧ Unharmed m action)
    (stepped : step board m action = some next) : Tracked next := by
  have stepped := (step_cases stepped).2
  cases action with
  | svcd task succeeds => exact tracked.svcd stepped guarded.1 guarded.2
  | svcdStart | svcdStop | shell created => exact tracked.shell stepped rfl guarded.1
  | mailbox mail port | worker address => exact tracked.worker stepped rfl guarded.1 guarded.2

theorem svcInit_tracked (nextTaskId : ℕ) : Tracked (svcInit nextTaskId) := by
  refine ⟨svcInit_sound nextTaskId, rfl, rfl, rfl, rfl, fun before port after same => ?_, nofun, ?_⟩
  · cases before <;> cases same
  · exact ⟨fun task place up => (Option.some_ne_none place up.here.symm).elim, fun _ => rfl⟩

end Tracked

/-- In every run of the daemon that is not stopped, each notification about a module is handled once and in order, as
long as signals find the daemon on the wait list and it does not wait after a pass that found events. -/
theorem svc_events_are_delivered_once (board : Board) (nextTaskId : ℕ) (m : Daemon) (actions : List Action)
    (served : Guarded (step board) Served (svcInit nextTaskId) actions)
    (unharmed : Guarded (step board) Unharmed (svcInit nextTaskId) actions)
    (ran : run (step board) (svcInit nextTaskId) actions = some m) : Delivered m :=
  (run_invariant_of_guarded Tracked (svcInit_tracked nextTaskId) (served.and unharmed) ran fun tracked => tracked.step).delivered

section Runs

/-- Two interfaces, at the switch ports 7 and 3 -/
def twoInterfaces : Board := ⟨[7, 3], by decide⟩

/-- The shell starts the daemon as task 5, which comes up and blocks. -/
def startDaemon : List Action :=
  [.svcdStart, .shell true, .shell true] ++ List.replicate 9 (.svcd 5 true)

/-- A whole call of `event_mailbox` -/
def notify (mail : Mail) (port : UInt8) (address : ℕ) : List Action :=
  .mailbox mail port :: List.replicate 3 (.worker (some address))

/-- A pass of the loop in `svcd_main`, up to the test of the loop -/
def pass : List Action := List.replicate 3 (.svcd 5 true)

/-- The daemon blocks again. -/
def block : List Action := List.replicate 2 (.svcd 5 true)

/-- A module is ready before the AP, and a pass without the AP leaves its event for the next one. -/
def moduleThenAp : List Action :=
  startDaemon ++ notify .readyOther 3 100 ++ pass ++ block ++ notify .readyAp 7 0 ++ pass

theorem svc_events_are_delivered_once_module :
    ∃ m, run (step twoInterfaces) (svcInit 5) moduleThenAp = some m ∧ handled m.journal = [3] ∧ Announced m.journal := by
  refine exists_final (fun m => handled m.journal) [3] (by decide +kernel) fun m ran calls => ?_
  refine ⟨calls, (svc_events_are_delivered_once twoInterfaces 5 m moduleThenAp ?_ ?_ ran).announced⟩
  · decide +kernel
  · decide +kernel

/-- After a pass that has handled an event the daemon is blocked with the freed event on its list. And the signal of a
second notification before the daemon has the lock again finds nobody. -/
theorem svc_handle_events_leaves_freed_event :
    (∃ m, run (step twoInterfaces) (svcInit 5) (moduleThenAp ++ block) = some m ∧
      Guarded (step twoInterfaces) Served (svcInit 5) (moduleThenAp ++ block) ∧ ¬Delivered m) ∧
    ∃ m, run (step twoInterfaces) (svcInit 5) (startDaemon ++ notify .readyAp 7 0 ++ notify .readyOther 3 100) = some m ∧
      m.faulted = true := by
  have freed : (run (step twoInterfaces) (svcInit 5) (moduleThenAp ++ block)).map
      (fun m => (m.svcd 5, m.svcEvents, m.allocated 100)) = some (some .waiting, [⟨100, 3⟩], false) := by
    decide +kernel
  have lost : (run (step twoInterfaces) (svcInit 5) (startDaemon ++ notify .readyAp 7 0 ++ notify .readyOther 3 100)).map
      (·.faulted) = some true := by
    decide +kernel
  obtain ⟨m, ran, same⟩ := Option.map_eq_some_iff.mp freed
  obtain ⟨blocked, same⟩ := Prod.mk.inj same
  obtain ⟨events, free⟩ := Prod.mk.inj same
  refine ⟨⟨m, ran, by decide +kernel, fun delivered => ?_⟩,
    Option.map_eq_some_iff.mp lost⟩
  have live := (delivered.blocked 5 blocked).1 ⟨100, 3⟩ (events ▸ List.mem_cons_self)
  rw [free] at live
  cases live

end Runs

end Phabos.Svcd
