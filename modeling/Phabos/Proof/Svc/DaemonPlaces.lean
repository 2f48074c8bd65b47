import Phabos.Library.Lock
import Phabos.Proof.Svc.DaemonSteps

namespace Phabos.Svcd
open Library Option
open Function (update update_of_ne update_self)

/-- No task is in `svcd_main`. -/
structure Down (m : Daemon) : Prop where
  ended : ∀ task, ∀ place ∈ m.svcd task, place = .left
  state : m.state = .stopped
  cv : m.cv = []
  listening : m.listening = false
  shell : ∀ task, m.shell ≠ .startSet task

/-- One task is in `svcd_main`, at a place. Its `svcd_start` may not have set the fields yet. -/
structure Up (m : Daemon) (task : ℕ) (place : Place) : Prop where
  here : m.svcd task = some place
  active : place ≠ .left
  others : ∀ other, other ≠ task → ∀ place ∈ m.svcd other, place = .left
  state : m.state = .running ∨ m.shell = .startSet task
  shell : ∀ other, m.shell = .startSet other → other = task ∧ place = .entry ∧ m.state = .stopped
  cv : m.cv = if place = .waiting then [task] else []
  listening : m.listening = place.listens

/-- What holds in every state -/
structure Sound (m : Daemon) : Prop where
  known : ∀ task, m.nextTaskId ≤ task → m.svcd task = none
  caller : m.worker ≠ .idle → m.listening = true
  lock : Exclusive m.locked m.inside
  daemon : Down m ∨ ∃ task place, Up m task place

section Moves
variable {board : Board} {m next : Daemon} {task : ℕ} {place place' : Place} {succeeds : Bool}

/-- What a step of the task that is in `svcd_main` does to what the parties share -/
structure Moved (m : Daemon) (task : ℕ) (place place' : Place) (next : Daemon) : Prop where
  svcd : next.svcd = update m.svcd task (some place')
  shell : next.shell = m.shell
  worker : next.worker = m.worker
  nextTaskId : next.nextTaskId = m.nextTaskId
  lock : Turn m.locked next.locked (place.inside = true) (place'.inside = true)
  free : place = .entry → m.locked = false
  state : next.state = if place' = .left then .stopped else m.state
  awake : place ≠ .waiting
  cv : next.cv = if place' = .waiting then m.cv ++ [task] else m.cv
  listening : next.listening = place'.listens
  idle : next.listening = false → m.listening = true → m.worker = .idle

/-- A step of a daemon that is up moves it to its next place. -/
theorem Up.step (up : Up m task place) (stepped : Step board m (.svcd task succeeds) next)
    (settles : place.settles m succeeds) : ∃ place', Moved m task place place' next := by
  have listening := up.listening
  have still {next : Daemon} (same : next.listening = m.listening) (off : next.listening = false)
      (on : m.listening = true) : m.worker = .idle :=
    (Bool.false_ne_true (off.symm.trans (same.trans on))).elim
  cases stepped with
  | enters _ _ here free =>
    obtain rfl := some.inj (up.here.symm.trans here)
    exact ⟨.startup .boardInit, rfl, rfl, rfl, rfl, .acquire free rfl rfl, fun _ => free, rfl, nofun, rfl, listening,
      still rfl⟩
  | startsUp _ _ stage _ here starts =>
    obtain rfl := some.inj (up.here.symm.trans here)
    obtain ⟨inside, listens, idle, -, moved⟩ := svcdStartup_started listening settles starts
    have busy : stage.next succeeds ≠ .left ∧ stage.next succeeds ≠ .waiting := by
      cases stage <;> cases succeeds <;> exact ⟨nofun, nofun⟩
    refine ⟨stage.next succeeds, (congrArg Daemon.svcd moved :), (congrArg Daemon.shell moved :),
      (congrArg Daemon.worker moved :), (congrArg Daemon.nextTaskId moved :),
      .inside rfl (congrArg Daemon.locked moved :) inside, nofun, ?_, nofun, ?_, listens, idle⟩
    · rw [if_neg busy.1]
      exact (congrArg Daemon.state moved :)
    · rw [if_neg busy.2]
      exact (congrArg Daemon.cv moved :)
  | stops _ _ here asked =>
    rcases here with here | here <;> obtain rfl := some.inj (up.here.symm.trans here) <;>
      exact ⟨.cleanup, rfl, rfl, rfl, rfl, .inside rfl rfl rfl, nofun, rfl, nofun, rfl, listening, still rfl⟩
  | unlocks _ _ here goesOn =>
    obtain rfl := some.inj (up.here.symm.trans here)
    exact ⟨.condWait, rfl, rfl, rfl, rfl, .release rfl rfl nofun, nofun, rfl, nofun, rfl, listening, still rfl⟩
  | waits _ _ here =>
    obtain rfl := some.inj (up.here.symm.trans here)
    exact ⟨.waiting, rfl, rfl, rfl, rfl, .outside nofun rfl nofun, nofun, rfl, nofun, rfl, listening, still rfl⟩
  | relocks _ _ here free =>
    obtain rfl := some.inj (up.here.symm.trans here)
    exact ⟨.stopTest, rfl, rfl, rfl, rfl, .acquire free rfl rfl, nofun, rfl, nofun, rfl, listening, still rfl⟩
  | handlesAp _ _ here goesOn ready first =>
    obtain rfl := some.inj (up.here.symm.trans here)
    cases succeeds with
    | true =>
      exact ⟨.handleEvents, rfl, rfl, rfl, rfl, .inside rfl rfl rfl, nofun, rfl, nofun, rfl, listening, still rfl⟩
    | false =>
      exact ⟨.cleanup, rfl, rfl, rfl, rfl, .inside rfl rfl rfl, nofun, rfl, nofun, rfl, listening, still rfl⟩
  | passesAp _ _ here goesOn settled =>
    obtain rfl := some.inj (up.here.symm.trans here)
    exact ⟨.handleEvents, rfl, rfl, rfl, rfl, .inside rfl rfl rfl, nofun, rfl, nofun, rfl, listening, still rfl⟩
  | handlesEvents _ _ here ready =>
    obtain rfl := some.inj (up.here.symm.trans here)
    rw [svcHandleEvents_passed]
    exact ⟨.loopTest, rfl, rfl, rfl, rfl, .inside rfl rfl rfl, nofun, rfl, nofun, rfl, listening, still rfl⟩
  | passesEvents _ _ here early =>
    obtain rfl := some.inj (up.here.symm.trans here)
    exact ⟨.loopTest, rfl, rfl, rfl, rfl, .inside rfl rfl rfl, nofun, rfl, nofun, rfl, listening, still rfl⟩
  | cleansUp _ _ here =>
    obtain rfl := some.inj (up.here.symm.trans here)
    exact ⟨.finish, rfl, rfl, rfl, rfl, .inside rfl rfl rfl, nofun, rfl, nofun, rfl, rfl, fun _ _ => settles⟩
  | finishes _ _ here =>
    obtain rfl := some.inj (up.here.symm.trans here)
    exact ⟨.left, rfl, rfl, rfl, rfl, .release rfl rfl nofun, nofun, rfl, nofun, rfl, listening, still rfl⟩
  | ends _ _ here => exact (up.active (some.inj (up.here.symm.trans here))).elim

/-- A daemon task that has not left is up. -/
theorem Sound.up (sound : Sound m) (here : m.svcd task = some place) (active : place ≠ .left) : Up m task place := by
  rcases sound.daemon with down | ⟨current, at_, up⟩
  · exact (active (down.ended task place here)).elim
  · by_cases same : task = current
    · subst same
      obtain rfl := some.inj (up.here.symm.trans here)
      exact up
    · exact (active (up.others task same place here)).elim

theorem inside_svcd {other : Party} (shell : next.shell = m.shell) (worker : next.worker = m.worker)
    (svcd : ∀ other, other ≠ task → next.svcd other = m.svcd other) (differs : other ≠ .svcd task) :
    next.inside other ↔ m.inside other := by
  cases other with
  | shell => exact iff_of_eq (congrArg (fun shell : Shell => shell.inside = true) shell)
  | worker => exact iff_of_eq (congrArg (fun worker : Worker => worker.inside = true) worker)
  | svcd other =>
    unfold Daemon.inside
    dsimp only
    rw [svcd other (fun same => differs (congrArg Party.svcd same))]

theorem inside_iff (here : m.svcd task = some place) : m.inside (.svcd task) ↔ place.inside = true := by
  unfold Daemon.inside
  dsimp only
  rw [here]
  exact ⟨fun ⟨_, same, inside⟩ => some.inj same ▸ inside, fun inside => ⟨place, rfl, inside⟩⟩

/-- A step of a party takes a turn with the lock, and the other parties are inside or not as before. -/
structure Turns (m next : Daemon) (party : Party) : Prop where
  turn : Turn m.locked next.locked (m.inside party) (next.inside party)
  others : ∀ other, other ≠ party → (next.inside other ↔ m.inside other)

theorem Turns.exclusive {party : Party} (turns : Turns m next party) (lock : Exclusive m.locked m.inside) :
    Exclusive next.locked next.inside := lock.turn party turns.turn turns.others

theorem Moved.turns (moved : Moved m task place place' next) (here : m.svcd task = some place) :
    Turns m next (.svcd task) := by
  have after : next.svcd task = some place' := by rw [moved.svcd, update_self]
  refine ⟨?_, fun other => inside_svcd moved.shell moved.worker fun other differs => ?_⟩
  · rw [inside_iff here, inside_iff after]
    exact moved.lock
  · rw [moved.svcd, update_of_ne differs]

theorem Sound.moved (sound : Sound m) (up : Up m task place) (moved : Moved m task place place' next) : Sound next := by
  have after : next.svcd task = some place' := by rw [moved.svcd, update_self]
  have elsewhere (other : ℕ) (differs : other ≠ task) : next.svcd other = m.svcd other := by
    rw [moved.svcd, update_of_ne differs]
  -- A start that has not set the fields has the lock, and the task waits for it.
  have set (other : ℕ) : m.shell ≠ .startSet other := by
    intro setting
    have locked : m.locked = true := by
      refine sound.lock.held .shell ?_
      unfold Daemon.inside
      dsimp only
      rw [setting]
      rfl
    rw [moved.free (up.shell other setting).2.1] at locked
    cases locked
  have running : m.state = .running := up.state.resolve_right (set task)
  have empty : m.cv = [] := by rw [up.cv, if_neg moved.awake]
  refine ⟨fun other later => ?_, fun calling => ?_, (moved.turns up.here).exclusive sound.lock, ?_⟩
  · rw [moved.nextTaskId] at later
    by_cases same : other = task
    · have none := sound.known other later
      rw [same, up.here] at none
      cases none
    · rw [elsewhere other same]
      exact sound.known other later
  · by_contra off
    rw [moved.worker] at calling
    exact calling (moved.idle (Bool.eq_false_iff.mpr off) (sound.caller calling))
  · by_cases left : place' = .left
    · refine .inl ⟨fun other place there => ?_, ?_, ?_, ?_, fun other => ?_⟩
      · by_cases same : other = task
        · rw [same, after] at there
          exact (some.inj there).symm.trans left
        · rw [elsewhere other same] at there
          exact up.others other same place there
      · rw [moved.state, if_pos left]
      · rw [moved.cv, left]
        exact empty
      · rw [moved.listening, left]
        rfl
      · rw [moved.shell]
        exact set other
    · refine .inr ⟨task, place', after, left, fun other differs => ?_, .inl ?_, fun other setting => ?_, ?_,
        moved.listening⟩
      · rw [elsewhere other differs]
        exact up.others other differs
      · rw [moved.state, if_neg left]
        exact running
      · rw [moved.shell] at setting
        exact (set other setting).elim
      · rw [moved.cv, empty]
        rfl

end Moves

section Calls
variable {board : Board} {m next : Daemon} {action : Action}

theorem Sound.signal_svcd (sound : Sound m) (task : ℕ) : (taskCondSignal m).svcd task = m.svcd task ∨
    m.svcd task = some .waiting ∧ (taskCondSignal m).svcd task = some .woken := by
  have nothing (empty : m.cv = []) : (taskCondSignal m).svcd task = m.svcd task := by
    rw [taskCondSignal_nil empty]
  rcases sound.daemon with down | ⟨current, place, up⟩
  · exact .inl (nothing down.cv)
  · by_cases blocked : place = .waiting
    · have cv := up.cv
      rw [if_pos blocked] at cv
      rw [taskCondSignal_singleton cv]
      by_cases same : task = current
      · rw [same, up.here, blocked]
        exact .inr ⟨rfl, update_self ..⟩
      · exact .inl (update_of_ne same ..)
    · have cv := up.cv
      rw [if_neg blocked] at cv
      exact .inl (nothing cv)

theorem Sound.signal_inside (sound : Sound m) (task : ℕ) :
    (taskCondSignal m).inside (.svcd task) ↔ m.inside (.svcd task) := by
  rcases sound.signal_svcd task with same | ⟨before, after⟩
  · unfold Daemon.inside
    dsimp only
    rw [same]
  · rw [inside_iff before, inside_iff after]
    exact iff_of_false nofun nofun

theorem Sound.signal_known (sound : Sound m) (task : ℕ) (later : (taskCondSignal m).nextTaskId ≤ task) :
    (taskCondSignal m).svcd task = none := by
  have nextTaskId : (taskCondSignal m).nextTaskId = m.nextTaskId :=
    (congrArg Daemon.nextTaskId (taskCondSignal_signalled m) :)
  have none := sound.known task (nextTaskId ▸ later)
  rcases sound.signal_svcd task with same | ⟨before, -⟩
  · exact same.trans none
  · rw [none] at before
    cases before

/-- The place of the daemon after a call that leaves it alone, or that ends the setting of the fields by no start -/
theorem daemon_same (daemon : Down m ∨ ∃ task place, Up m task place) (svcd : next.svcd = m.svcd) (cv : next.cv = m.cv)
    (listening : next.listening = m.listening) (state : next.state = m.state)
    (shell : next.shell = m.shell ∨ (∀ task, m.shell ≠ .startSet task) ∧ ∀ task, next.shell ≠ .startSet task) :
    Down next ∨ ∃ task place, Up next task place := by
  rcases daemon with down | ⟨task, place, up⟩
  · refine .inl ⟨svcd ▸ down.ended, state.trans down.state, cv.trans down.cv, listening.trans down.listening, ?_⟩
    rcases shell with same | ⟨-, none⟩
    · rw [same]
      exact down.shell
    · exact none
  · refine .inr ⟨task, place, svcd ▸ up.here, up.active, svcd ▸ up.others, ?_, ?_, cv.trans up.cv,
      listening.trans up.listening⟩
    · rw [state]
      rcases shell with same | ⟨none, -⟩
      · rw [same]
        exact up.state
      · exact .inl (up.state.resolve_right (none task))
    · rw [state]
      rcases shell with same | ⟨-, none⟩
      · rw [same]
        exact up.shell
      · exact fun other setting => (none other setting).elim

theorem daemon_signalled (sound : Sound m) (svcd : next.svcd = (taskCondSignal m).svcd)
    (cv : next.cv = (taskCondSignal m).cv) (listening : next.listening = m.listening) (state : next.state = m.state)
    (before : ∀ task, m.shell ≠ .startSet task) (after : ∀ task, next.shell ≠ .startSet task) :
    Down next ∨ ∃ task place, Up next task place := by
  have nothing (empty : m.cv = []) : Down next ∨ ∃ task place, Up next task place := by
    rw [taskCondSignal_nil empty] at svcd cv
    exact daemon_same sound.daemon svcd cv listening state (.inr ⟨before, after⟩)
  rcases sound.daemon with down | ⟨task, place, up⟩
  · exact nothing down.cv
  by_cases blocked : place = .waiting
  · have one := up.cv
    rw [if_pos blocked] at one
    rw [taskCondSignal_singleton one] at svcd cv
    have there : next.svcd task = some .woken := by rw [svcd]; exact update_self ..
    refine .inr ⟨task, .woken, there, nofun, fun other differs => ?_, .inl ?_, ?_, cv, ?_⟩
    · have same : next.svcd other = m.svcd other := by rw [svcd]; exact update_of_ne differs ..
      rw [same]
      exact up.others other differs
    · rw [state]
      exact up.state.resolve_right (before task)
    · exact fun other setting => (after other setting).elim
    · rw [listening, up.listening, blocked]
      rfl
  · have empty := up.cv
    rw [if_neg blocked] at empty
    exact nothing empty

theorem Sound.created_inside (sound : Sound m)
    (svcd : next.svcd = update m.svcd m.nextTaskId (some .entry)) (task : ℕ) :
    next.inside (.svcd task) ↔ m.inside (.svcd task) := by
  by_cases new : task = m.nextTaskId
  · have after : next.svcd task = some .entry := by rw [svcd, new]; exact update_self ..
    have before : m.svcd task = none := sound.known task (Nat.le_of_eq new.symm)
    rw [inside_iff after]
    unfold Daemon.inside
    dsimp only
    rw [before]
    exact iff_of_false nofun nofun
  · unfold Daemon.inside
    dsimp only
    rw [svcd, update_of_ne new]

theorem Sound.down (sound : Sound m) (here : m.shell = .startCheck) (stopped : m.state = .stopped) : Down m := by
  refine sound.daemon.resolve_right ?_
  rintro ⟨task, place, up⟩
  have both := up.state
  rw [stopped, here] at both
  cases both with
  | inl running => cases running
  | inr setting => cases setting

theorem Sound.created_up (sound : Sound m) (here : m.shell = .startCheck) (stopped : m.state = .stopped)
    (svcd : next.svcd = update m.svcd m.nextTaskId (some .entry)) (shell : next.shell = .startSet m.nextTaskId)
    (cv : next.cv = m.cv) (listening : next.listening = m.listening) (state : next.state = m.state) :
    Up next m.nextTaskId .entry := by
  have down := sound.down here stopped
  refine ⟨?_, nofun, fun other differs => ?_, .inr shell, fun other setting => ?_, cv.trans down.cv,
    listening.trans down.listening⟩
  · rw [svcd]
    exact update_self ..
  · have same : next.svcd other = m.svcd other := by rw [svcd]; exact update_of_ne differs ..
    rw [same]
    exact down.ended other
  · rw [shell] at setting
    exact ⟨(Shell.startSet.inj setting).symm, rfl, state.trans stopped⟩

theorem inside_same (svcd : next.svcd = m.svcd) (task : ℕ) : next.inside (.svcd task) ↔ m.inside (.svcd task) := by
  unfold Daemon.inside
  dsimp only
  rw [svcd]

theorem Sound.worker_turns (sound : Sound m) (stepped : Step board m action next) (party : action.party = .worker) :
    Turns m next .worker := by
  have turns {next : Daemon} (turn : Turn m.locked next.locked (m.worker.inside = true) (next.worker.inside = true))
      (shell : next.shell = m.shell) (svcd : ∀ task, next.inside (.svcd task) ↔ m.inside (.svcd task)) :
      Turns m next .worker := by
    refine ⟨turn, fun other differs => ?_⟩
    cases other with
    | shell => exact iff_of_eq (congrArg (fun shell : Shell => shell.inside = true) shell)
    | worker => exact (differs rfl).elim
    | svcd task => exact svcd task
  cases stepped with
  | mailboxCalled mail port here listening =>
    refine turns (.outside ?_ rfl nofun) rfl (inside_same rfl)
    rw [here]
    exact nofun
  | mailboxLocks address mail port here free => exact turns (.acquire free rfl rfl) rfl (inside_same rfl)
  | mailboxStores address mail port stored here stores =>
    have frame := eventMailbox_stored stores
    refine turns (.inside ?_ ?_ rfl) ?_ (inside_same (congrArg Daemon.svcd frame :))
    · rw [here]
      rfl
    · exact (congrArg Daemon.locked frame :)
    · exact (congrArg Daemon.shell frame :)
  | mailboxSignals address here =>
    refine turns (.release ?_ rfl nofun) ?_ sound.signal_inside
    · rw [here]
      rfl
    · exact (congrArg Daemon.shell (taskCondSignal_signalled m) :)
  | _ => cases party

theorem Sound.worker (sound : Sound m) (stepped : Step board m action next) (party : action.party = .worker) :
    Sound next := by
  have lock := (sound.worker_turns stepped party).exclusive sound.lock
  cases stepped with
  | mailboxCalled mail port here listening =>
    exact ⟨sound.known, fun _ => listening, lock, daemon_same sound.daemon rfl rfl rfl rfl (.inl rfl)⟩
  | mailboxLocks address mail port here free =>
    refine ⟨sound.known, fun _ => sound.caller ?_, lock, daemon_same sound.daemon rfl rfl rfl rfl (.inl rfl)⟩
    rw [here]
    exact nofun
  | mailboxStores address mail port stored here stores =>
    have frame := eventMailbox_stored stores
    have svcd : stored.svcd = m.svcd := (congrArg Daemon.svcd frame :)
    have listening : stored.listening = m.listening := (congrArg Daemon.listening frame :)
    have nextTaskId : stored.nextTaskId = m.nextTaskId := (congrArg Daemon.nextTaskId frame :)
    refine ⟨?_, fun _ => listening.trans (sound.caller ?_), lock, daemon_same sound.daemon svcd ?_ listening ?_ (.inl ?_)⟩
    · dsimp only
      rw [svcd, nextTaskId]
      exact sound.known
    · rw [here]
      exact nofun
    · exact (congrArg Daemon.cv frame :)
    · exact (congrArg Daemon.state frame :)
    · exact (congrArg Daemon.shell frame :)
  | mailboxSignals address here =>
    have frame := taskCondSignal_signalled m
    have shell : (taskCondSignal m).shell = m.shell := (congrArg Daemon.shell frame :)
    have set (task : ℕ) : m.shell ≠ .startSet task := by
      intro setting
      have worker : m.inside .worker := by
        change m.worker.inside = true
        rw [here]
        rfl
      have starting : m.inside .shell := by
        change m.shell.inside = true
        rw [setting]
        rfl
      cases sound.lock.alone .worker .shell worker starting
    refine ⟨sound.signal_known, fun calling => (calling rfl).elim, lock, daemon_signalled sound rfl rfl ?_ ?_ set ?_⟩
    · exact (congrArg Daemon.listening frame :)
    · exact (congrArg Daemon.state frame :)
    · dsimp only
      rw [shell]
      exact set
  | _ => cases party

/-- `svcd_start` cannot create its task. -/
def StartFails (m : Daemon) (action : Action) : Prop :=
  m.shell = .startCheck ∧ m.state = .stopped ∧ action = .shell false

section
variable (sound : Sound m) (stepped : Step board m action next) (party : action.party = .shell)
include sound stepped party

theorem Sound.shell_turns (created : ¬StartFails m action) : Turns m next .shell := by
  have turns {next : Daemon} (turn : Turn m.locked next.locked (m.shell.inside = true) (next.shell.inside = true))
      (worker : next.worker = m.worker) (svcd : ∀ task, next.inside (.svcd task) ↔ m.inside (.svcd task)) :
      Turns m next .shell := by
    refine ⟨turn, fun other differs => ?_⟩
    cases other with
    | shell => exact (differs rfl).elim
    | worker => exact iff_of_eq (congrArg (fun worker : Worker => worker.inside = true) worker)
    | svcd task => exact svcd task
  have was {place : Shell} (here : m.shell = place) (inside : place.inside = true) : m.shell.inside = true :=
    here ▸ inside
  cases stepped with
  | startLocks here free | stopLocks here free => exact turns (.acquire free rfl rfl) rfl (inside_same rfl)
  | startIsBusy _ here running | startSets _ task here | stopIsIdle _ here stopped =>
    exact turns (.release (was here rfl) rfl nofun) rfl (inside_same rfl)
  | startFails here stopped => exact (created ⟨here, stopped, rfl⟩).elim
  | startRuns here stopped => exact turns (.inside (was here rfl) rfl rfl) rfl (sound.created_inside rfl)
  | stopAsks _ here running => exact turns (.inside (was here rfl) rfl rfl) rfl (inside_same rfl)
  | stopSignals _ pid here =>
    exact turns (.release (was here rfl) rfl nofun) (congrArg Daemon.worker (taskCondSignal_signalled m) :)
      sound.signal_inside
  | stopReturns _ pid here =>
    refine turns (.outside ?_ rfl nofun) rfl (inside_same rfl)
    rw [here]
    exact nofun
  | _ => cases party

theorem Sound.shell_lock : Exclusive next.locked next.inside := by
  by_cases created : StartFails m action
  · obtain ⟨here, stopped, rfl⟩ := created
    cases stepped with
    | startFails here stopped =>
      refine sound.lock.leak fun party inside => ?_
      cases party with
      | shell => cases inside
      | worker => exact inside
      | svcd task => exact inside
    | startIsBusy _ _ running => cases stopped.symm.trans running
    | startSets _ _ setting => cases here.symm.trans setting
    | stopIsIdle _ stopping _ | stopAsks _ stopping _ | stopSignals _ _ stopping | stopReturns _ _ stopping =>
      cases here.symm.trans stopping
  · exact (sound.shell_turns stepped party created).exclusive sound.lock

theorem Sound.shell : Sound next := by
  have lock := sound.shell_lock stepped party
  have set {place : Shell} (here : m.shell = place) (other : ∀ task, place ≠ .startSet task) (task : ℕ) :
      m.shell ≠ .startSet task := here ▸ other task
  have leaves {next : Daemon} {place : Shell} (here : m.shell = place) (other : ∀ task, place ≠ .startSet task)
      (svcd : next.svcd = m.svcd) (cv : next.cv = m.cv) (listening : next.listening = m.listening)
      (state : next.state = m.state) (none : ∀ task, next.shell ≠ .startSet task) :
      Down next ∨ ∃ task place, Up next task place :=
    daemon_same sound.daemon svcd cv listening state (.inr ⟨set here other, none⟩)
  cases stepped with
  | startLocks here free | stopLocks here free | startIsBusy _ here running | startFails here stopped
  | stopIsIdle _ here stopped | stopAsks _ here running | stopReturns _ pid here =>
    exact ⟨sound.known, sound.caller, lock, leaves here nofun rfl rfl rfl rfl nofun⟩
  | startRuns here stopped =>
    refine ⟨fun task later => ?_, sound.caller, lock, .inr ⟨_, _, sound.created_up here stopped rfl rfl rfl rfl rfl⟩⟩
    dsimp only at later ⊢
    rw [update_of_ne (by omega)]
    exact sound.known task (by omega)
  | startSets _ task here =>
    refine ⟨sound.known, sound.caller, lock, ?_⟩
    rcases sound.daemon with down | ⟨current, place, up⟩
    · exact (down.shell task here).elim
    · exact .inr ⟨current, place, up.here, up.active, up.others, .inl rfl, nofun, up.cv, up.listening⟩
  | stopSignals _ pid here =>
    have frame := taskCondSignal_signalled m
    have worker : (taskCondSignal m).worker = m.worker := (congrArg Daemon.worker frame :)
    have listening : (taskCondSignal m).listening = m.listening := (congrArg Daemon.listening frame :)
    refine ⟨sound.signal_known, ?_, lock, daemon_signalled sound rfl rfl listening ?_ (set here nofun) nofun⟩
    · dsimp only
      rw [worker, listening]
      exact sound.caller
    · exact (congrArg Daemon.state frame :)
  | _ => cases party

end

theorem ends_turns {task : ℕ} (here : m.svcd task = some .left) :
    Turns m { m with svcd := update m.svcd task none } (.svcd task) := by
  refine ⟨.outside ?_ rfl ?_, fun other => inside_svcd rfl rfl fun other differs => update_of_ne differs ..⟩
  · rw [inside_iff here]
    exact nofun
  · rintro ⟨place, there, -⟩
    dsimp only at there
    rw [update_self] at there
    cases there

theorem Sound.ends (sound : Sound m) {task : ℕ} (here : m.svcd task = some .left) :
    Sound { m with svcd := update m.svcd task none } := by
  have elsewhere {other : ℕ} (differs : other ≠ task) : update m.svcd task none other = m.svcd other :=
    update_of_ne differs ..
  have gone : update m.svcd task none task = none := update_self ..
  refine ⟨fun other later => ?_, sound.caller, (ends_turns here).exclusive sound.lock, ?_⟩
  · by_cases same : other = task
    · exact same ▸ gone
    · exact (elsewhere same).trans (sound.known other later)
  · rcases sound.daemon with down | ⟨current, place, up⟩
    · refine .inl { down with ended := fun other place there => ?_ }
      dsimp only at there
      by_cases same : other = task
      · rw [same, gone] at there
        cases there
      · exact down.ended other place (elsewhere same ▸ there)
    · have differs : current ≠ task := by
        rintro rfl
        exact up.active (some.inj (up.here.symm.trans here))
      refine .inr ⟨current, place, (elsewhere differs).trans up.here, up.active, fun other differs place there => ?_,
        up.state, up.shell, up.cv, up.listening⟩
      dsimp only at there
      by_cases same : other = task
      · rw [same, gone] at there
        cases there
      · exact up.others other differs place (elsewhere same ▸ there)

end Calls

section Run
variable {board : Board} {m next : Daemon} {action : Action}

theorem Sound.svcd_cases (sound : Sound m) {task : ℕ} {succeeds : Bool}
    (stepped : Step board m (.svcd task succeeds) next) :
    (∃ place, Up m task place) ∨
      m.svcd task = some .left ∧ next = { m with svcd := update m.svcd task none } := by
  cases stepped with
  | enters _ _ here free | startsUp _ _ stage _ here starts => exact .inl ⟨_, sound.up here nofun⟩
  | stops _ _ here asked => rcases here with here | here <;> exact .inl ⟨_, sound.up here nofun⟩
  | unlocks _ _ here goesOn | waits _ _ here | relocks _ _ here free | handlesAp _ _ here goesOn ready first
  | passesAp _ _ here goesOn settled | handlesEvents _ _ here ready | passesEvents _ _ here early
  | cleansUp _ _ here | finishes _ _ here => exact .inl ⟨_, sound.up here nofun⟩
  | ends _ _ here => exact .inr ⟨here, rfl⟩

/-- A step keeps the places of the parties sound. -/
theorem Sound.step (sound : Sound m) (stepped : Step board m action next) (settles : Settles m action) :
    Sound next := by
  cases party : action.party with
  | shell => exact sound.shell stepped party
  | worker => exact sound.worker stepped party
  | svcd task =>
    cases action with
    | svcd task' succeeds =>
      rcases sound.svcd_cases stepped with ⟨place, up⟩ | ⟨here, rfl⟩
      · obtain ⟨place', moved⟩ := up.step stepped (settles place up.here)
        exact sound.moved up moved
      · exact sound.ends here
    | _ => cases party

/-- A step takes or gives back the lock for its own party only. -/
theorem Sound.turns (sound : Sound m) (stepped : Step board m action next) (created : ¬StartFails m action)
    (settles : Settles m action) : Turns m next action.party := by
  cases party : action.party with
  | shell => exact sound.shell_turns stepped party created
  | worker => exact sound.worker_turns stepped party
  | svcd task =>
    cases action with
    | svcd task' succeeds =>
      obtain rfl := Party.svcd.inj party
      rcases sound.svcd_cases stepped with ⟨place, up⟩ | ⟨here, rfl⟩
      · obtain ⟨place', moved⟩ := up.step stepped (settles place up.here)
        exact moved.turns up.here
      · exact ends_turns here
    | _ => cases party

theorem svcInit_sound (nextTaskId : ℕ) : Sound (svcInit nextTaskId) := by
  refine ⟨fun _ _ => rfl, fun calling => (calling rfl).elim, ⟨fun party inside => ?_, fun party _ inside => ?_⟩,
    .inl ⟨nofun, rfl, rfl, rfl, nofun⟩⟩ <;>
  · cases party with
    | shell => cases inside
    | worker => cases inside
    | svcd task =>
      obtain ⟨_, there, -⟩ := inside
      cases there

end Run

section Calling
variable {m : Daemon}

theorem Sound.calling (sound : Sound m) (inside : m.worker.inside = true) :
    ∃ task place, Up m task place ∧ (place = .condWait ∨ place = .waiting ∨ place = .woken) := by
  have listening : m.listening = true := by
    refine sound.caller fun idle => ?_
    rw [idle] at inside
    cases inside
  rcases sound.daemon with down | ⟨task, place, up⟩
  · rw [down.listening] at listening
    cases listening
  · have outside : place.inside = false := by
      by_contra both
      have one := sound.lock.alone .worker (.svcd task) inside
        ((inside_iff up.here).mpr ((Bool.not_eq_false _).mp both))
      cases one
    rw [up.listening] at listening
    refine ⟨task, place, up, ?_⟩
    cases place with
    | condWait => exact .inl rfl
    | waiting => exact .inr (.inl rfl)
    | woken => exact .inr (.inr rfl)
    | startup stage => cases outside
    | entry => cases listening
    | left => cases listening
    | loopTest => cases outside
    | stopTest => cases outside
    | handleEvents => cases outside
    | cleanup => cases outside
    | finish => cases outside

end Calling

/-- An assertion about the place of the daemon, which has left `svcd_main` when no task is in it -/
structure Daemon.Holds (m : Daemon) (assertion : Place → Prop) : Prop where
  active : ∀ task place, Up m task place → assertion place
  down : Down m → assertion .left

section Holds
variable {m next : Daemon} {task : ℕ} {place place' : Place} {before after : Place → Prop}

theorem Down.not_up (down : Down m) (up : Up m task place) : False := up.active (down.ended task place up.here)

theorem Up.unique {other : ℕ} (one : Up m task place) (two : Up m other place') : place' = place := by
  by_cases same : other = task
  · rw [same] at two
    exact some.inj (two.here.symm.trans one.here)
  · exact (two.active (one.others other same place' two.here)).elim

theorem Up.holds (up : Up m task place) (here : after place) : m.Holds after :=
  ⟨fun _ _ other => up.unique other ▸ here, fun down => (down.not_up up).elim⟩

theorem Down.holds (down : Down m) (here : after .left) : m.Holds after :=
  ⟨fun _ _ up => (down.not_up up).elim, fun _ => here⟩

section
variable (sound : Sound m) (later : Sound next)
include sound later

theorem Sound.holds_goes (here : m.svcd task = some place) (active : place ≠ .left)
    (svcd : next.svcd = update m.svcd task (some place')) (new : after place') : next.Holds after := by
  have there : next.svcd task = some place' := by rw [svcd, update_self]
  rcases later.daemon with down | ⟨other, found, now⟩
  · exact down.holds (down.ended task place' there ▸ new)
  · refine now.holds ?_
    have own := now.here
    by_cases same : other = task
    · rw [same, there] at own
      exact some.inj own ▸ new
    · rw [svcd, update_of_ne same] at own
      exact (now.active ((sound.up here active).others other same found own)).elim

theorem Sound.holds_same (svcd : next.svcd = m.svcd) (holds : m.Holds before)
    (kept : ∀ place, before place → after place) : next.Holds after := by
  rcases later.daemon with down | ⟨task, place, up⟩
  · refine down.holds (kept _ ?_)
    rcases sound.daemon with was | ⟨task, place, was⟩
    · exact holds.down was
    · exact (was.active (down.ended task place (svcd ▸ was.here))).elim
  · exact up.holds (kept _ (holds.active task place (sound.up (svcd ▸ up.here) up.active)))

theorem Sound.holds_signal (svcd : next.svcd = (taskCondSignal m).svcd) (waits : m.cv ≠ []) (holds : m.Holds before)
    (woken : before .waiting → after .woken) : next.Holds after := by
  rcases sound.daemon with down | ⟨task, place, up⟩
  · exact (waits down.cv).elim
  · have blocked : place = .waiting := by
      by_contra other
      exact waits (by rw [up.cv, if_neg other])
    have cv := up.cv
    rw [if_pos blocked] at cv
    have there : next.svcd task = some .woken := by
      rw [svcd, taskCondSignal_singleton cv]
      exact update_self ..
    exact (later.up there nofun).holds (woken (blocked ▸ holds.active task place up))

theorem Sound.holds_created (here : m.shell = .startCheck) (stopped : m.state = .stopped)
    (svcd : next.svcd = update m.svcd m.nextTaskId (some .entry)) (holds : m.Holds before)
    (created : before .left → after .entry) : next.Holds after := by
  have there : next.svcd m.nextTaskId = some .entry := by
    rw [svcd]
    exact update_self ..
  refine (later.up there nofun).holds (created (holds.down ?_))
  exact sound.down here stopped

theorem Sound.holds_ends (here : m.svcd task = some .left) (svcd : next.svcd = update m.svcd task none)
    (holds : m.Holds before) (kept : ∀ place, before place → after place) : next.Holds after := by
  have elsewhere {other : ℕ} {found : Place} (there : next.svcd other = some found) : m.svcd other = some found := by
    rw [svcd] at there
    by_cases same : other = task
    · rw [same, update_self] at there
      cases there
    · rwa [update_of_ne same] at there
  rcases later.daemon with down | ⟨other, found, up⟩
  · refine down.holds (kept _ ?_)
    rcases sound.daemon with was | ⟨other, found, was⟩
    · exact holds.down was
    · refine (was.active (down.ended other found ?_)).elim
      rw [svcd, update_of_ne]
      · exact was.here
      · rintro rfl
        exact was.active (some.inj (was.here.symm.trans here))
  · exact up.holds (kept _ (holds.active other found (sound.up (elsewhere up.here) up.active)))

end

end Holds

end Phabos.Svcd
