import Phabos.Proof.Svc.HotplugEvents

namespace Phabos.Svcd
open Library Function List Option

/-- What has happened since a svcd task had the lock for the first time -/
def thisRun (journal : List Entry) : List Entry := (journal.reverse.takeWhile (· ≠ .started)).reverse

/-- `svc->board_info` is set while the daemon is at the place. -/
def Place.hasBoard : Place → Bool
  | .entry | .startup .boardInit | .finish | .left => false
  | _ => true

/-- `svc->sw` is set while the daemon is at the place. -/
def Place.hasSwitch : Place → Bool
  | .entry | .startup .boardInit | .startup .interfaceEarlyInit | .startup .switchInit | .finish | .left => false
  | _ => true

/-- The daemon has not come up. -/
def Place.starting : Place → Bool
  | .entry | .startup _ => true
  | _ => false

/-- The worker has not told the daemon about the AP at a port. -/
def Worker.tells (port : UInt8) : Worker → Bool
  | .lock .readyAp other | .store .readyAp other => other = port
  | .signal => true
  | _ => false

/-- The lock is taken exactly while one party is inside, at most one svcd task exists, its end leaves the state as it
was before, each run starts without an AP, and in each run the AP that was ready first is handled before any module and
before the daemon blocks. -/
structure LifeCycle (board : Board) (m : Daemon) : Prop where
  intact : m.faulted = false
  lock : m.locked = true ↔ ∃ party, m.inside party
  alone : ∀ one two, m.inside one → m.inside two → one = two
  only : ∀ one two, (m.svcd one).isSome → (m.svcd two).isSome → one = two
  ended : (∀ task, ∀ place ∈ m.svcd task, place = .left) → m.state = .stopped ∧ m.sw = false ∧ m.boardInfo = false
  fresh : ∀ task, ∀ place ∈ m.svcd task, place.starting →
    m.apIntfId = 0 ∧ m.apInitialized = false ∧ m.sw = place.hasSwitch ∧ m.boardInfo = place.hasBoard ∧
      (place = .startup .irqEnable → m.svcEvents = [])
  announced : Announced (thisRun m.journal)
  answered : ∀ succeeds, .handleAp succeeds ∈ thisRun m.journal → ∃ port, .mailbox .readyAp port ∈ thisRun m.journal
  handshake : ∀ task, m.svcd task = some .waiting → ∀ port, .mailbox .readyAp port ∈ thisRun m.journal →
    0 ≤ interfaceGetIdByPortid board port → m.worker.tells port = false → .handleAp true ∈ thisRun m.journal

/-- Events can be allocated. -/
def Allocates : Action → Prop
  | .worker address => address ≠ none
  | _ => True

/-- A start creates its task, after the last one has ended and without an AP. The signal of a stop finds the daemon. -/
def Shell.orderly (m : Daemon) (created : Bool) : Shell → Prop
  | .startCheck => m.state = .stopped →
      created = true ∧ m.svcd m.svcdPid = none ∧ m.apIntfId = 0 ∧ m.apInitialized = false
  | .stopSignal _ => m.cv ≠ []
  | _ => True

/-- An event is not put where one is that has been freed. The signal of a notification finds the daemon. -/
def Worker.orderly (m : Daemon) (address : Option ℕ) : Worker → Prop
  | .store .readyOther _ => ∀ free ∈ address, free ∉ m.svcEvents.map (·.address)
  | .signal => m.cv ≠ []
  | _ => True

/-- The startup does not fail after `board_init`, no pass finds an event that has been freed, and no notification is in
hand when the clean-up removes the worker. -/
def Place.orderly (m : Daemon) (succeeds : Bool) : Place → Prop
  | .startup stage => stage ≠ .boardInit → succeeds = true
  | .handleEvents => m.apInitialized = true → ∀ event ∈ m.svcEvents, m.allocated event.address = true
  | .cleanup => m.worker = .idle
  | _ => True

def Orderly (m : Daemon) : Action → Prop
  | .shell created => m.shell.orderly m created
  | .worker address => m.worker.orderly m address
  | .svcd task succeeds => ∀ place ∈ m.svcd task, place.orderly m succeeds
  | _ => True

instance : ∀ action, Decidable (Allocates action)
  | .worker address => inferInstanceAs (Decidable (address ≠ none))
  | .svcdStart | .svcdStop | .shell _ | .mailbox _ _ | .svcd _ _ => inferInstanceAs (Decidable True)

instance (m : Daemon) (created : Bool) : ∀ shell : Shell, Decidable (shell.orderly m created)
  | .startCheck => inferInstanceAs (Decidable (m.state = .stopped →
      created = true ∧ m.svcd m.svcdPid = none ∧ m.apIntfId = 0 ∧ m.apInitialized = false))
  | .stopSignal _ => inferInstanceAs (Decidable (m.cv ≠ []))
  | .idle | .startSet _ | .stopCheck | .stopWait _ => inferInstanceAs (Decidable True)

instance (m : Daemon) (address : Option ℕ) : ∀ worker : Worker, Decidable (worker.orderly m address)
  | .store .readyOther _ => inferInstanceAs (Decidable (∀ free ∈ address, free ∉ m.svcEvents.map (·.address)))
  | .signal => inferInstanceAs (Decidable (m.cv ≠ []))
  | .idle | .lock _ _ | .store .readyAp _ | .store .other _ => inferInstanceAs (Decidable True)

instance (m : Daemon) (succeeds : Bool) : ∀ place : Place, Decidable (place.orderly m succeeds)
  | .startup stage => inferInstanceAs (Decidable (stage ≠ .boardInit → succeeds = true))
  | .handleEvents => inferInstanceAs
      (Decidable (m.apInitialized = true → ∀ event ∈ m.svcEvents, m.allocated event.address = true))
  | .cleanup => inferInstanceAs (Decidable (m.worker = .idle))
  | .entry | .loopTest | .condWait | .waiting | .woken | .stopTest | .finish | .left => inferInstanceAs (Decidable True)

instance (m : Daemon) : ∀ action, Decidable (Orderly m action)
  | .shell created => inferInstanceAs (Decidable (m.shell.orderly m created))
  | .worker address => inferInstanceAs (Decidable (m.worker.orderly m address))
  | .svcd task succeeds => inferInstanceAs (Decidable (∀ place ∈ m.svcd task, place.orderly m succeeds))
  | .svcdStart | .svcdStop | .mailbox _ _ => inferInstanceAs (Decidable True)

theorem Orderly.settles {m : Daemon} {action : Action} (orderly : Orderly m action) : Settles m action := by
  cases action with
  | svcd task succeeds =>
    intro place here
    have own := orderly place here
    cases place with
    | startup stage =>
      cases stage with
      | irqEnable => exact fun fails => (Bool.false_ne_true (fails.symm.trans (own nofun))).elim
      | _ => trivial
    | cleanup => exact own
    | _ => trivial
  | _ => trivial

section Journal
variable {journal : List Entry}

theorem thisRun_started (journal : List Entry) : thisRun (journal ++ [.started]) = [] := by
  unfold thisRun
  rw [reverse_append, reverse_singleton, singleton_append, takeWhile_cons_of_neg (by simp)]
  rfl

theorem thisRun_concat {entry : Entry} (other : entry ≠ .started) :
    thisRun (journal ++ [entry]) = thisRun journal ++ [entry] := by
  unfold thisRun
  rw [reverse_append, reverse_singleton, singleton_append,
    takeWhile_cons_of_pos (by simpa using other), reverse_cons]

theorem thisRun_append {later : List Entry} (others : ∀ entry ∈ later, entry ≠ .started) :
    thisRun (journal ++ later) = thisRun journal ++ later := by
  induction later generalizing journal with
  | nil => rw [append_nil, append_nil]
  | cons entry later ih =>
    have next : thisRun (journal ++ [entry] ++ later) = thisRun (journal ++ [entry]) ++ later :=
      ih fun other there => others other (mem_cons_of_mem _ there)
    rw [thisRun_concat (others entry mem_cons_self), append_assoc, append_assoc] at next
    exact next

end Journal

theorem interfaceGetIdByPortid_ne_zero {board : Board} {port : UInt8} (known : 0 ≤ interfaceGetIdByPortid board port) :
    UInt8.ofNat (interfaceGetIdByPortid board port).toNat ≠ 0 := by
  unfold interfaceGetIdByPortid at known ⊢
  split at known
  · rename_i index found
    have inside : index < board.portids.length := (List.findIdx?_eq_some_iff_getElem.mp found).1
    have few := board.few
    intro zero
    have value := congrArg UInt8.toNat zero
    rw [UInt8.toNat_ofNat'] at value
    have small : (index + 1 : Int).toNat = index + 1 := rfl
    rw [small, Nat.mod_eq_of_lt (by omega)] at value
    cases value
  · cases known

/-- What the daemon has been told about the AP in this run -/
structure Session (board : Board) (run : List Entry) (worker : Worker) (apIntfId : UInt8) (initialised : Bool) :
    Prop where
  greeted : initialised = true → .handleAp true ∈ run
  told : ∀ port, .mailbox .readyAp port ∈ run → 0 ≤ interfaceGetIdByPortid board port →
    apIntfId ≠ 0 ∨ worker = .lock .readyAp port ∨ worker = .store .readyAp port
  learnt : apIntfId ≠ 0 → ∃ port, .mailbox .readyAp port ∈ run
  called : ∀ mail port, worker = .lock mail port ∨ worker = .store mail port → .mailbox mail port ∈ run

/-- What holds of the AP while the daemon is at a place -/
def Place.keeps (board : Board) (run : List Entry) (worker : Worker) (apIntfId : UInt8) (initialised : Bool)
    (events : List SvcEvent) : Place → Prop
  | .entry => apIntfId = 0 ∧ initialised = false
  | .startup stage => apIntfId = 0 ∧ initialised = false ∧ Session board run worker apIntfId initialised ∧
      (stage = .irqEnable → events = [])
  | .loopTest | .condWait | .waiting => Session board run worker apIntfId initialised ∧
      (apIntfId ≠ 0 → worker ≠ .signal → initialised = true)
  | .woken | .stopTest => Session board run worker apIntfId initialised
  | .handleEvents => Session board run worker apIntfId initialised ∧ (apIntfId ≠ 0 → initialised = true)
  | .cleanup | .finish | .left => True

section Session
variable {board : Board} {run : List Entry} {worker worker' : Worker} {apIntfId apIntfId' : UInt8}
  {initialised : Bool} {mail : Mail} {port : UInt8} {events : List SvcEvent} {place : Place}

theorem Session.mailbox (session : Session board run .idle apIntfId initialised) (mail : Mail) (port : UInt8) :
    Session board (run ++ [.mailbox mail port]) (.lock mail port) apIntfId initialised := by
  refine ⟨fun ready => mem_append_left _ (session.greeted ready), fun other there known => ?_, fun learnt => ?_,
    fun mail' port' here => ?_⟩
  · rcases mem_append.mp there with old | new
    · rcases session.told other old known with told | here | here
      · exact .inl told
      · cases here
      · cases here
    · obtain ⟨rfl, rfl⟩ := Entry.mailbox.inj (mem_singleton.mp new)
      exact .inr (.inl rfl)
  · obtain ⟨port, there⟩ := session.learnt learnt
    exact ⟨port, mem_append_left _ there⟩
  · rcases here with here | here
    · obtain ⟨rfl, rfl⟩ := Worker.lock.inj here
      exact mem_append_right _ mem_cons_self
    · cases here

theorem keeps_mailbox (keeps : place.keeps board run .idle apIntfId initialised events) (mail : Mail) (port : UInt8) :
    place.keeps board (run ++ [.mailbox mail port]) (.lock mail port) apIntfId initialised events := by
  cases place with
  | entry => exact keeps
  | startup stage => exact ⟨keeps.1, keeps.2.1, keeps.2.2.1.mailbox mail port, keeps.2.2.2⟩
  | loopTest | condWait | waiting => exact ⟨keeps.1.mailbox mail port, fun learnt _ => keeps.2 learnt nofun⟩
  | woken | stopTest => exact Session.mailbox keeps mail port
  | handleEvents => exact ⟨keeps.1.mailbox mail port, keeps.2⟩
  | cleanup | finish | left => exact keeps

theorem Session.locks (session : Session board run (.lock mail port) apIntfId initialised) :
    Session board run (.store mail port) apIntfId initialised := by
  refine ⟨session.greeted, fun other there known => ?_, session.learnt, fun mail' port' here => ?_⟩
  · rcases session.told other there known with told | here | here
    · exact .inl told
    · obtain ⟨rfl, rfl⟩ := Worker.lock.inj here
      exact .inr (.inr rfl)
    · cases here
  · rcases here with here | here
    · cases here
    · obtain ⟨rfl, rfl⟩ := Worker.store.inj here
      exact session.called mail port (.inl rfl)

theorem keeps_locks (keeps : place.keeps board run (.lock mail port) apIntfId initialised events) :
    place.keeps board run (.store mail port) apIntfId initialised events := by
  cases place with
  | entry => exact keeps
  | startup stage => exact ⟨keeps.1, keeps.2.1, keeps.2.2.1.locks, keeps.2.2.2⟩
  | loopTest | condWait | waiting => exact ⟨keeps.1.locks, fun learnt _ => keeps.2 learnt nofun⟩
  | woken | stopTest => exact Session.locks keeps
  | handleEvents => exact ⟨keeps.1.locks, keeps.2⟩
  | cleanup | finish | left => exact keeps

theorem Session.stores (session : Session board run (.store mail port) apIntfId initialised)
    (still : apIntfId ≠ 0 → apIntfId' ≠ 0)
    (known : mail = .readyAp → 0 ≤ interfaceGetIdByPortid board port → apIntfId' ≠ 0)
    (source : apIntfId' ≠ 0 → apIntfId ≠ 0 ∨ mail = .readyAp) :
    Session board run .signal apIntfId' initialised := by
  refine ⟨session.greeted, fun other there found => ?_, fun learnt => ?_, nofun⟩
  · rcases session.told other there found with told | here | here
    · exact .inl (still told)
    · cases here
    · obtain ⟨rfl, rfl⟩ := Worker.store.inj here
      exact .inl (known rfl found)
  · rcases source learnt with old | rfl
    · exact session.learnt old
    · exact ⟨port, session.called _ _ (.inr rfl)⟩

theorem Session.signals (session : Session board run .signal apIntfId initialised) :
    Session board run .idle apIntfId initialised := by
  refine ⟨session.greeted, fun other there found => ?_, session.learnt, nofun⟩
  rcases session.told other there found with told | here | here
  · exact .inl told
  · cases here
  · cases here

theorem Session.append (session : Session board run worker apIntfId initialised) {later : List Entry}
    {initialised' : Bool} (greeted : initialised' = true → .handleAp true ∈ run ++ later)
    (silent : ∀ port, .mailbox .readyAp port ∉ later) : Session board (run ++ later) worker apIntfId initialised' := by
  refine ⟨greeted, fun port there => ?_, fun learnt => ?_, fun mail port here => ?_⟩
  · exact session.told port ((mem_append.mp there).resolve_right (silent port))
  · obtain ⟨port, there⟩ := session.learnt learnt
    exact ⟨port, mem_append_left _ there⟩
  · exact mem_append_left _ (session.called mail port here)

end Session

/-- What holds in the runs whose steps are orderly -/
structure Cycled (board : Board) (m : Daemon) : Prop where
  sound : Sound m
  intact : m.faulted = false
  holder : m.locked = true → ∃ party, m.inside party
  only : ∀ one two, (m.svcd one).isSome → (m.svcd two).isSome → one = two
  pid : ∀ task, (m.svcd task).isSome → task = m.svcdPid ∨ m.shell = .startSet task
  distinct : (m.svcEvents.map (·.address)).Nodup
  announced : Announced (thisRun m.journal)
  answered : ∀ succeeds, .handleAp succeeds ∈ thisRun m.journal → ∃ port, .mailbox .readyAp port ∈ thisRun m.journal
  resources : m.Holds fun place => m.sw = place.hasSwitch ∧ m.boardInfo = place.hasBoard
  place : m.Holds (Place.keeps board (thisRun m.journal) m.worker m.apIntfId m.apInitialized m.svcEvents)

section Cycled
variable {board : Board} {m next : Daemon} {action : Action}

theorem Cycled.lifeCycle (cycled : Cycled board m) : LifeCycle board m := by
  refine ⟨cycled.intact, ⟨cycled.holder, fun ⟨party, inside⟩ => cycled.sound.lock.held party inside⟩,
    cycled.sound.lock.alone, cycled.only, fun ended => ?_, fun task place there starting => ?_, cycled.announced,
    cycled.answered, fun task blocked port there known silent => ?_⟩
  · rcases cycled.sound.daemon with down | ⟨task, place, up⟩
    · exact ⟨down.state, cycled.resources.down down⟩
    · exact (up.active (ended task place up.here)).elim
  · have active : place ≠ .left := by
      rintro rfl
      cases starting
    have up := cycled.sound.up there active
    obtain ⟨sw, boardInfo⟩ := cycled.resources.active task place up
    have keeps := cycled.place.active task place up
    cases place with
    | entry => exact ⟨keeps.1, keeps.2, sw, boardInfo, nofun⟩
    | startup stage => exact ⟨keeps.1, keeps.2.1, sw, boardInfo, fun same => keeps.2.2.2 (Place.startup.inj same)⟩
    | _ => cases starting
  · obtain ⟨session, settled⟩ := cycled.place.active task .waiting (cycled.sound.up blocked nofun)
    refine session.greeted (settled ?_ ?_)
    · refine (session.told port there known).resolve_right ?_
      have own : decide (port = port) = true := decide_eq_true rfl
      rintro (here | here) <;>
      · rw [here] at silent
        exact Bool.false_ne_true (silent.symm.trans own)
    · intro here
      rw [here] at silent
      cases silent

theorem Cycled.only_kept (cycled : Cycled board m) (kept : ∀ task, (next.svcd task).isSome → (m.svcd task).isSome) :
    ∀ one two, (next.svcd one).isSome → (next.svcd two).isSome → one = two :=
  fun one two first second => cycled.only one two (kept one first) (kept two second)

theorem Sound.signal_kept (sound : Sound m) (task : ℕ) (some : ((taskCondSignal m).svcd task).isSome) :
    (m.svcd task).isSome := by
  rcases sound.signal_svcd task with same | ⟨before, -⟩
  · rwa [same] at some
  · rw [before]
    rfl

theorem Cycled.shell (cycled : Cycled board m) (stepped : Step board m action next) (party : action.party = .shell)
    (orderly : Orderly m action) : Cycled board next := by
  have later := cycled.sound.step stepped orderly.settles
  have created : ¬StartFails m action := by
    rintro ⟨here, stopped, rfl⟩
    unfold Orderly at orderly
    dsimp only at orderly
    rw [here] at orderly
    cases (orderly stopped).1
  have turns := cycled.sound.turns stepped created orderly.settles
  have holder := turns.turn.holder action.party turns.others cycled.holder
  have pid {place : Shell} (here : m.shell = place) (other : ∀ task, place ≠ .startSet task) (task : ℕ)
      (some : (m.svcd task).isSome) : task = m.svcdPid :=
    (cycled.pid task some).resolve_right fun setting => other task (here.symm.trans setting)
  cases stepped with
  | startLocks here free | stopLocks here free | startIsBusy _ here running | stopIsIdle _ here stopped
  | stopAsks _ here running | stopReturns _ _ here =>
    exact ⟨later, cycled.intact, holder, cycled.only, fun task some => .inl (pid here nofun task some), cycled.distinct,
      cycled.announced, cycled.answered, cycled.sound.holds_same later rfl cycled.resources fun _ => id,
      cycled.sound.holds_same later rfl cycled.place fun _ => id⟩
  | startFails here stopped => exact (created ⟨here, stopped, rfl⟩).elim
  | startRuns here stopped =>
    unfold Orderly at orderly
    dsimp only at orderly
    rw [here] at orderly
    obtain ⟨-, gone, unknown, fresh⟩ := orderly stopped
    have none (task : ℕ) (some : (m.svcd task).isSome) : False := by
      rw [pid here nofun task some, gone] at some
      cases some
    have new (task : ℕ) (some : (update m.svcd m.nextTaskId (some .entry) task).isSome) :
        task = m.nextTaskId := by
      by_contra other
      rw [update_of_ne other] at some
      exact none task some
    exact ⟨later, cycled.intact, holder, fun one two first second => (new one first).trans (new two second).symm,
      fun task some => .inr (new task some ▸ rfl), cycled.distinct, cycled.announced, cycled.answered,
      cycled.sound.holds_created later here stopped rfl cycled.resources id,
      cycled.sound.holds_created later here stopped rfl cycled.place fun _ => ⟨unknown, fresh⟩⟩
  | startSets _ task here =>
    have own (other : ℕ) (some : (m.svcd other).isSome) : other = task := by
      refine cycled.only other task some ?_
      rcases cycled.sound.daemon with down | ⟨current, place, up⟩
      · exact (down.shell task here).elim
      · rw [(up.shell task here).1, up.here]
        rfl
    exact ⟨later, cycled.intact, holder, cycled.only, fun other some => .inl (own other some), cycled.distinct,
      cycled.announced, cycled.answered, cycled.sound.holds_same later rfl cycled.resources fun _ => id,
      cycled.sound.holds_same later rfl cycled.place fun _ => id⟩
  | stopSignals _ stopping here =>
    have frame := taskCondSignal_signalled m
    have waits : m.cv ≠ [] := by
      unfold Orderly at orderly
      dsimp only at orderly
      rwa [here] at orderly
    have kept := cycled.sound.signal_kept
    refine ⟨later, (taskCondSignal_intact waits).trans cycled.intact, holder, cycled.only_kept kept, fun task some => ?_,
      ?_, ?_, ?_, ?_, ?_⟩
    · rw [frame]
      exact .inl (pid here nofun task (kept task some))
    · rw [frame]
      exact cycled.distinct
    · rw [frame]
      exact cycled.announced
    · rw [frame]
      exact cycled.answered
    · refine cycled.sound.holds_signal later rfl waits cycled.resources fun resources => ?_
      rw [frame]
      exact resources
    · refine cycled.sound.holds_signal later rfl waits cycled.place fun keeps => ?_
      rw [frame]
      exact keeps.1
  | _ => cases party

theorem svcdStartup_resources {task : ℕ} {stage : Stage} {succeeds : Bool} (sw : m.sw = (Place.startup stage).hasSwitch)
    (boardInfo : m.boardInfo = (Place.startup stage).hasBoard) (orderly : stage ≠ .boardInit → succeeds = true)
    (starts : svcdStartup m task stage succeeds = some next) :
    next.sw = (stage.next succeeds).hasSwitch ∧ next.boardInfo = (stage.next succeeds).hasBoard := by
  unfold svcdStartup at starts
  cases succeeds with
  | true =>
    cases stage <;> obtain rfl := some.inj starts
    case boardInit => exact ⟨sw, rfl⟩
    case switchInit => exact ⟨rfl, boardInfo⟩
    all_goals exact ⟨sw, boardInfo⟩
  | false =>
    cases stage with
    | boardInit =>
      obtain rfl := some.inj starts
      exact ⟨sw, boardInfo⟩
    | _ => cases orderly nofun

theorem svcdStartup_keeps {task : ℕ} {stage : Stage} {succeeds : Bool} {run : List Entry} (unknown : m.apIntfId = 0)
    (fresh : m.apInitialized = false) (session : Session board run m.worker m.apIntfId m.apInitialized)
    (starts : svcdStartup m task stage succeeds = some next) :
    (stage.next succeeds).keeps board run m.worker m.apIntfId m.apInitialized next.svcEvents := by
  cases stage with
  | eventInit =>
    unfold svcdStartup at starts
    obtain rfl := some.inj starts
    exact ⟨unknown, fresh, session, fun _ => rfl⟩
  | irqEnable =>
    cases succeeds with
    | true => exact ⟨session, fun learnt => (learnt unknown).elim⟩
    | false => trivial
  | _ =>
    cases succeeds with
    | true => exact ⟨unknown, fresh, session, nofun⟩
    | false => trivial

theorem Cycled.stores (cycled : Cycled board m) {address : Option ℕ} {mail : Mail} {port : UInt8} {stored : Daemon}
    (here : m.worker = .store mail port) (allocates : address ≠ none) (orderly : m.worker.orderly m address)
    (stores : eventMailbox board m address mail port = some stored) :
    stored.faulted = false ∧ (stored.svcEvents.map (·.address)).Nodup ∧
      m.Holds (Place.keeps board (thisRun m.journal) .signal stored.apIntfId m.apInitialized stored.svcEvents) := by
  have inside : m.worker.inside = true := by rw [here]; rfl
  obtain ⟨task, place, up, outside⟩ := cycled.sound.calling inside
  have keeps := cycled.place.active task place up
  rw [here] at keeps orderly
  have told (apIntfId : UInt8) (events : List SvcEvent) (still : m.apIntfId ≠ 0 → apIntfId ≠ 0)
      (known : mail = .readyAp → 0 ≤ interfaceGetIdByPortid board port → apIntfId ≠ 0)
      (source : apIntfId ≠ 0 → m.apIntfId ≠ 0 ∨ mail = .readyAp) :
      m.Holds (Place.keeps board (thisRun m.journal) .signal apIntfId m.apInitialized events) := by
    refine up.holds ?_
    rcases outside with rfl | rfl | rfl
    · exact ⟨keeps.1.stores still known source, fun _ calm => (calm rfl).elim⟩
    · exact ⟨keeps.1.stores still known source, fun _ calm => (calm rfl).elim⟩
    · exact Session.stores keeps still known source
  cases mail with
  | readyAp =>
    unfold eventMailbox at stores
    obtain rfl := some.inj stores
    split
    · rename_i unknown
      exact ⟨cycled.intact, cycled.distinct, told _ _ id (fun _ known => (Int.not_le.mpr unknown known).elim) .inl⟩
    · rename_i known
      have new := interfaceGetIdByPortid_ne_zero (Int.not_lt.mp known)
      exact ⟨cycled.intact, cycled.distinct, told _ _ (fun _ => new) (fun _ _ => new) fun _ => .inr rfl⟩
  | other =>
    unfold eventMailbox at stores
    obtain rfl := some.inj stores
    exact ⟨cycled.intact, cycled.distinct, told _ _ id nofun .inl⟩
  | readyOther =>
    cases address with
    | none => exact (allocates rfl).elim
    | some address =>
      have free : address ∉ m.svcEvents.map (·.address) := orderly address rfl
      unfold eventMailbox svcEventCreate at stores
      dsimp only at stores
      rw [if_neg free] at stores
      split at stores
      · cases stores
      obtain rfl := some.inj stores
      refine ⟨cycled.intact, ?_, told _ _ id nofun .inl⟩
      rw [map_append]
      refine nodup_append.mpr ⟨cycled.distinct, pairwise_singleton _ _, fun one there two new => ?_⟩
      rw [mem_singleton.mp new]
      rintro rfl
      exact free there

theorem Cycled.worker (cycled : Cycled board m) (stepped : Step board m action next) (party : action.party = .worker)
    (allocates : Allocates action) (orderly : Orderly m action) : Cycled board next := by
  have later := cycled.sound.step stepped orderly.settles
  have created : ¬StartFails m action := by
    rintro ⟨-, -, rfl⟩
    cases party
  have turns := cycled.sound.turns stepped created orderly.settles
  have holder := turns.turn.holder action.party turns.others cycled.holder
  cases stepped with
  | mailboxCalled mail port here listening =>
    have run : thisRun (m.journal ++ [.mailbox mail port]) = thisRun m.journal ++ [.mailbox mail port] :=
      thisRun_concat nofun
    have place := cycled.place
    rw [here] at place
    refine ⟨later, cycled.intact, holder, cycled.only, cycled.pid, cycled.distinct, ?_, fun succeeds there => ?_,
      cycled.sound.holds_same later rfl cycled.resources fun _ => id,
      cycled.sound.holds_same later rfl place fun place keeps => ?_⟩
    · dsimp only
      rw [run]
      exact cycled.announced.concat nofun
    · dsimp only at there ⊢
      rw [run] at there ⊢
      rcases mem_append.mp there with old | new
      · obtain ⟨port, asked⟩ := cycled.answered succeeds old
        exact ⟨port, mem_append_left _ asked⟩
      · cases mem_singleton.mp new
    · dsimp only
      rw [run]
      exact keeps_mailbox keeps mail port
  | mailboxLocks address mail port here free =>
    have place := cycled.place
    rw [here] at place
    exact ⟨later, cycled.intact, holder, cycled.only, cycled.pid, cycled.distinct, cycled.announced, cycled.answered,
      cycled.sound.holds_same later rfl cycled.resources fun _ => id,
      cycled.sound.holds_same later rfl place fun _ => keeps_locks⟩
  | mailboxStores address mail port stored here stores =>
    obtain ⟨intact, distinct, place⟩ := cycled.stores here allocates orderly stores
    have frame := eventMailbox_stored stores
    rw [frame] at later holder ⊢
    exact ⟨later, intact, holder, cycled.only, cycled.pid, distinct, cycled.announced, cycled.answered,
      cycled.sound.holds_same later rfl cycled.resources fun _ => id,
      cycled.sound.holds_same later rfl place fun _ => id⟩
  | mailboxSignals address here =>
    have frame := taskCondSignal_signalled m
    have waits : m.cv ≠ [] := by
      unfold Orderly at orderly
      dsimp only at orderly
      rwa [here] at orderly
    have kept := cycled.sound.signal_kept
    have place := cycled.place
    rw [here] at place
    refine ⟨later, (taskCondSignal_intact waits).trans cycled.intact, holder, cycled.only_kept kept, fun task some => ?_,
      ?_, ?_, ?_, ?_, ?_⟩
    · rw [frame]
      exact cycled.pid task (kept task some)
    · rw [frame]
      exact cycled.distinct
    · rw [frame]
      exact cycled.announced
    · rw [frame]
      exact cycled.answered
    · refine cycled.sound.holds_signal later rfl waits cycled.resources fun resources => ?_
      rw [frame]
      exact resources
    · refine cycled.sound.holds_signal later rfl waits place fun keeps => ?_
      rw [frame]
      exact keeps.1.signals
  | _ => cases party

theorem goes_known {task : ℕ} {place place' : Place} (here : m.svcd task = some place)
    (svcd : next.svcd = update m.svcd task (some place')) (other : ℕ) (known : (next.svcd other).isSome) :
    (m.svcd other).isSome := by
  by_cases same : other = task
  · rw [same, here]
    rfl
  · rwa [svcd, update_of_ne same] at known

/-- A step that moves the daemon on, and that leaves what it has been told and what it is to handle as they are -/
theorem Cycled.goes (cycled : Cycled board m) {task : ℕ} {place place' : Place} {state : SvcState} {cv : List ℕ}
    {sw boardInfo locked listening : Bool} (here : m.svcd task = some place) (active : place ≠ .left)
    (later : Sound { m.goes task place' with sw, boardInfo, state, locked, cv, listening })
    (holder : locked = true →
      ∃ party, { m.goes task place' with sw, boardInfo, state, locked, cv, listening }.inside party)
    (resources : sw = place'.hasSwitch ∧ boardInfo = place'.hasBoard)
    (keeps : place'.keeps board (thisRun m.journal) m.worker m.apIntfId m.apInitialized m.svcEvents) :
    Cycled board { m.goes task place' with sw, boardInfo, state, locked, cv, listening } := by
  exact { cycled with
    sound := later
    holder
    only := cycled.only_kept (goes_known here rfl)
    pid := fun other some => cycled.pid other (goes_known here rfl other some)
    resources := cycled.sound.holds_goes later here active rfl resources
    place := cycled.sound.holds_goes later here active rfl keeps }

theorem Cycled.svcd (cycled : Cycled board m) {task : ℕ} {succeeds : Bool}
    (stepped : Step board m (.svcd task succeeds) next) (orderly : Orderly m (.svcd task succeeds)) :
    Cycled board next := by
  have later := cycled.sound.step stepped orderly.settles
  have turns := cycled.sound.turns stepped (by rintro ⟨-, -, same⟩; cases same) orderly.settles
  have holder := turns.turn.holder (.svcd task) turns.others cycled.holder
  have known {place : Place} (here : m.svcd task = some place) (active : place ≠ .left) :
      (m.sw = place.hasSwitch ∧ m.boardInfo = place.hasBoard) ∧
        place.keeps board (thisRun m.journal) m.worker m.apIntfId m.apInitialized m.svcEvents :=
    ⟨cycled.resources.active task place (cycled.sound.up here active),
      cycled.place.active task place (cycled.sound.up here active)⟩
  cases stepped with
  | enters _ _ here free =>
    obtain ⟨resources, keeps⟩ := known here nofun
    have idle : m.worker = .idle := by
      by_contra calling
      have listening := cycled.sound.caller calling
      rw [(cycled.sound.up here nofun).listening] at listening
      cases listening
    refine ⟨later, cycled.intact, holder, cycled.only_kept (goes_known here rfl),
      fun other some => cycled.pid other (goes_known here rfl other some), cycled.distinct, ?_, ?_,
      cycled.sound.holds_goes later here nofun rfl resources, cycled.sound.holds_goes later here nofun rfl ?_⟩
    · dsimp only
      rw [thisRun_started]
      intro before port after same
      cases before <;> cases same
    · dsimp only
      rw [thisRun_started]
      exact nofun
    · dsimp only
      rw [thisRun_started]
      refine ⟨keeps.1, keeps.2, ⟨fun ready => ?_, nofun, fun learnt => (learnt keeps.1).elim, fun mail port called => ?_⟩,
        nofun⟩
      · cases keeps.2.symm.trans ready
      · change m.worker = _ ∨ m.worker = _ at called
        rw [idle] at called
        rcases called with called | called <;> cases called
  | startsUp _ _ stage _ here starts =>
    obtain ⟨resources, keeps⟩ := known here nofun
    obtain ⟨unknown, fresh, session, -⟩ := keeps
    obtain ⟨-, -, -, events, moved⟩ := svcdStartup_started (cycled.sound.up here nofun).listening (orderly.settles _ here) starts
    have resources := svcdStartup_resources resources.1 resources.2 (orderly _ here) starts
    have keeps : (stage.next succeeds).keeps board (thisRun m.journal) m.worker m.apIntfId m.apInitialized
        next.svcEvents := svcdStartup_keeps unknown fresh session starts
    have distinct : (next.svcEvents.map (·.address)).Nodup := by
      rcases events with same | none
      · rw [same]
        exact cycled.distinct
      · rw [none]
        exact nodup_nil
    have svcd : next.svcd = update m.svcd task (some (stage.next succeeds)) := (congrArg Daemon.svcd moved :)
    have resources : next.Holds fun place => next.sw = place.hasSwitch ∧ next.boardInfo = place.hasBoard :=
      cycled.sound.holds_goes later here nofun svcd resources
    have place := cycled.sound.holds_goes later here nofun svcd keeps
    have only := cycled.only_kept (goes_known here svcd)
    have pid (other : ℕ) (some : (next.svcd other).isSome) := cycled.pid other (goes_known here svcd other some)
    rw [moved] at later holder only pid resources place ⊢
    exact { cycled with sound := later, holder, only, pid, distinct, resources, place }
  | stops _ _ here asked =>
    rcases here with here | here <;>
    · obtain ⟨resources, -⟩ := known here nofun
      exact cycled.goes here nofun later holder resources trivial
  | unlocks _ _ here goesOn | waits _ _ here | relocks _ _ here free =>
    obtain ⟨resources, keeps⟩ := known here nofun
    exact cycled.goes here nofun later holder resources keeps
  | handlesAp _ _ here goesOn ready first =>
    obtain ⟨resources, session⟩ := known here nofun
    have run : thisRun (m.journal ++ [.handleAp succeeds]) = thisRun m.journal ++ [.handleAp succeeds] :=
      thisRun_concat nofun
    obtain ⟨port, asked⟩ := Session.learnt session ready
    refine ⟨later, cycled.intact, holder, cycled.only_kept (goes_known here rfl),
      fun other some => cycled.pid other (goes_known here rfl other some), cycled.distinct, ?_, fun _ _ => ?_,
      cycled.sound.holds_goes later here nofun rfl ?_, cycled.sound.holds_goes later here nofun rfl ?_⟩
    · dsimp only
      rw [run]
      exact cycled.announced.concat nofun
    · dsimp only
      rw [run]
      exact ⟨port, mem_append_left _ asked⟩
    · cases succeeds <;> exact resources
    · dsimp only
      rw [run]
      cases succeeds with
      | true =>
        refine ⟨Session.append session (fun _ => mem_append_right _ mem_cons_self) fun port there => ?_,
          fun _ => rfl⟩
        cases mem_singleton.mp there
      | false => trivial
  | passesAp _ _ here goesOn settled =>
    obtain ⟨resources, keeps⟩ := known here nofun
    exact cycled.goes here nofun later holder resources ⟨keeps, settled⟩
  | handlesEvents _ _ here ready =>
    obtain ⟨resources, session, settled⟩ := known here nofun
    obtain ⟨intact, journal, -⟩ := svcHandleEvents_live ⟨orderly _ here ready, cycled.distinct⟩
    have silent : ∀ entry ∈ m.svcEvents.map (fun event => Entry.handleModuleReady event.port),
        ∃ port, entry = .handleModuleReady port := by
      intro entry there
      obtain ⟨event, -, rfl⟩ := mem_map.mp there
      exact ⟨event.port, rfl⟩
    have run : thisRun (svcHandleEvents m.svcEvents m).journal =
        thisRun m.journal ++ m.svcEvents.map fun event => .handleModuleReady event.port := by
      rw [journal]
      refine thisRun_append fun entry there => ?_
      obtain ⟨port, rfl⟩ := silent entry there
      exact nofun
    have svcd : ((svcHandleEvents m.svcEvents m).goes task .loopTest).svcd =
        update m.svcd task (some .loopTest) := by
      rw [svcHandleEvents_passed]
      rfl
    have only := cycled.only_kept (goes_known here svcd)
    have pid (other : ℕ) (some : (((svcHandleEvents m.svcEvents m).goes task .loopTest).svcd other).isSome) :=
      cycled.pid other (goes_known here svcd other some)
    rw [svcHandleEvents_passed] at later holder only pid ⊢
    refine ⟨later, intact.trans cycled.intact, holder, only, pid, cycled.distinct, ?_, fun succeeds there => ?_,
      cycled.sound.holds_goes later here nofun rfl resources, cycled.sound.holds_goes later here nofun rfl ?_⟩
    · change Announced (thisRun (svcHandleEvents m.svcEvents m).journal)
      rw [run]
      exact cycled.announced.append (session.greeted ready)
    · change .handleAp succeeds ∈ thisRun (svcHandleEvents m.svcEvents m).journal at there
      change ∃ port, .mailbox .readyAp port ∈ thisRun (svcHandleEvents m.svcEvents m).journal
      rw [run] at there ⊢
      rcases mem_append.mp there with old | new
      · obtain ⟨port, asked⟩ := cycled.answered succeeds old
        exact ⟨port, mem_append_left _ asked⟩
      · obtain ⟨port, same⟩ := silent _ new
        cases same
    · change Place.keeps board (thisRun (svcHandleEvents m.svcEvents m).journal) m.worker m.apIntfId m.apInitialized
        m.svcEvents .loopTest
      rw [run]
      refine ⟨session.append (fun _ => mem_append_left _ (session.greeted ready)) fun port there => ?_,
        fun learnt _ => settled learnt⟩
      obtain ⟨_, same⟩ := silent _ there
      cases same
  | passesEvents _ _ here early =>
    obtain ⟨resources, keeps⟩ := known here nofun
    exact cycled.goes here nofun later holder resources ⟨keeps.1, fun learnt _ => keeps.2 learnt⟩
  | cleansUp _ _ here =>
    exact cycled.goes here nofun later holder ⟨rfl, rfl⟩ trivial
  | finishes _ _ here =>
    obtain ⟨resources, -⟩ := known here nofun
    exact cycled.goes here nofun later holder resources trivial
  | ends _ _ here =>
    have fewer (other : ℕ) (some : (update m.svcd task none other).isSome) : (m.svcd other).isSome := by
      by_cases same : other = task
      · rw [same, here]
        rfl
      · rwa [update_of_ne same] at some
    exact ⟨later, cycled.intact, holder, cycled.only_kept fewer, fun other some => cycled.pid other (fewer other some),
      cycled.distinct, cycled.announced, cycled.answered,
      cycled.sound.holds_ends later here rfl cycled.resources fun _ => id,
      cycled.sound.holds_ends later here rfl cycled.place fun _ => id⟩

/-- A guarded step keeps the daemon in its life cycle. -/
theorem Cycled.step (cycled : Cycled board m) (guarded : Allocates action ∧ Orderly m action)
    (stepped : step board m action = some next) : Cycled board next := by
  have stepped := (step_cases stepped).2
  cases action with
  | svcd task succeeds => exact cycled.svcd stepped guarded.2
  | svcdStart | svcdStop | shell created => exact cycled.shell stepped rfl guarded.2
  | mailbox mail port | worker address => exact cycled.worker stepped rfl guarded.1 guarded.2

theorem svcInit_cycled (board : Board) (nextTaskId : ℕ) : Cycled board (svcInit nextTaskId) := by
  have away (task : ℕ) (some : ((svcInit nextTaskId).svcd task).isSome) : False := Bool.false_ne_true some
  have down (assertion : Place → Prop) (left : assertion .left) : (svcInit nextTaskId).Holds assertion :=
    ⟨fun task place up => (some_ne_none place up.here.symm).elim, fun _ => left⟩
  refine ⟨svcInit_sound nextTaskId, rfl, nofun, fun one _ some => (away one some).elim,
    fun task some => (away task some).elim, nodup_nil, fun before port after same => ?_, nofun,
    down _ ⟨rfl, rfl⟩, down _ trivial⟩
  cases before <;> cases same

end Cycled

/-- In every run of starts, stops, notifications and steps of the daemon the life cycle is kept, as long as tasks can be
created, no startup fails after `board_init`, each start comes without an AP and after the end of the last task, no
notification is in hand at a clean-up, and signals find the daemon on the wait list and passes no freed events. -/
theorem svcd_life_cycle (board : Board) (nextTaskId : ℕ) (m : Daemon) (actions : List Action)
    (allocates : Guarded (step board) (fun _ => Allocates) (svcInit nextTaskId) actions)
    (orderly : Guarded (step board) Orderly (svcInit nextTaskId) actions)
    (ran : run (step board) (svcInit nextTaskId) actions = some m) : LifeCycle board m :=
  (run_invariant_of_guarded (Cycled board) (svcInit_cycled board nextTaskId) (allocates.and orderly) ran fun cycled =>
    cycled.step).lifeCycle

section Runs

/-- The shell stops the daemon, which is task 5 and blocked, and the task ends before `svcd_stop` returns. -/
def stopDaemon : List Action :=
  [.svcdStop, .shell true, .shell true] ++ List.replicate 5 (.svcd 5 true) ++ [.shell true]

/-- The shell starts the daemon as task 6, which comes up and blocks. -/
def restartDaemon : List Action :=
  [.svcdStart, .shell true, .shell true] ++ List.replicate 9 (.svcd 6 true)

/-- The daemon is started, stopped and started again before the AP is ready. -/
def cycleThenAp : List Action :=
  startDaemon ++ stopDaemon ++ restartDaemon ++ notify .readyAp 7 0 ++ List.replicate 5 (.svcd 6 true)

theorem svcd_life_cycle_restart :
    ∃ m, run (step twoInterfaces) (svcInit 5) cycleThenAp = some m ∧ m.svcd 6 = some .waiting ∧
      .handleAp true ∈ thisRun m.journal := by
  refine exists_final (fun m => (m.svcd 6, m.worker, decide (.mailbox .readyAp 7 ∈ thisRun m.journal)))
    (some .waiting, .idle, true) (by decide +kernel) fun m ran same => ?_
  obtain ⟨blocked, same⟩ := Prod.mk.inj same
  obtain ⟨idle, there⟩ := Prod.mk.inj same
  have cycle := svcd_life_cycle twoInterfaces 5 m cycleThenAp
    (by decide +kernel)
    (by decide +kernel) ran
  exact ⟨blocked, cycle.handshake 6 blocked 7 (of_decide_eq_true there) (by decide) (idle ▸ rfl)⟩

/-- A start that cannot create its task keeps the lock. A startup whose `switch_init` fails leaves `svc->board_info`
set. And a daemon that is started again knows the old AP, so that it handles a module without a handshake. -/
theorem svcd_start_keeps_lock :
    (∃ m, run (step twoInterfaces) (svcInit 5) [.svcdStart, .shell false] = some m ∧ m.locked = true ∧
      ∀ party, ¬m.inside party) ∧
    (∃ m, run (step twoInterfaces) (svcInit 5) ([.svcdStart, .shell true, .shell true] ++
      [.svcd 5 true, .svcd 5 true, .svcd 5 true, .svcd 5 false, .svcd 5 true, .svcd 5 true]) = some m ∧
      m.svcd 5 = none ∧ m.boardInfo = true) ∧
    ∃ m, run (step twoInterfaces) (svcInit 5) (startDaemon ++ notify .readyAp 7 0 ++ pass ++ block ++ stopDaemon ++
      restartDaemon ++ notify .readyOther 3 100 ++ List.replicate 3 (.svcd 6 true)) = some m ∧
      thisRun m.journal = [.mailbox .readyOther 3, .handleModuleReady 3] := by
  refine ⟨?_, ?_, ?_⟩
  · refine ⟨_, rfl, rfl, fun party inside => ?_⟩
    cases party with
    | shell => cases inside
    | worker => cases inside
    | svcd task =>
      obtain ⟨_, there, -⟩ := inside
      cases there
  · refine exists_final (fun m => (m.svcd 5, m.boardInfo)) (none, true) (by decide +kernel) fun m ran same => ?_
    exact Prod.mk.inj same
  · have ends : (run (step twoInterfaces) (svcInit 5) (startDaemon ++ notify .readyAp 7 0 ++ pass ++ block ++
        stopDaemon ++ restartDaemon ++ notify .readyOther 3 100 ++ List.replicate 3 (.svcd 6 true))).map
          (fun m => thisRun m.journal) = some [.mailbox .readyOther 3, .handleModuleReady 3] := by
      decide +kernel
    exact map_eq_some_iff.mp ends

end Runs

end Phabos.Svcd
