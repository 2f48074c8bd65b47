import Mathlib.Data.List.Perm.Basic
import Phabos.Construction.Lib.Workqueue
import Phabos.Library.Counting
import Phabos.Library.Run

namespace Phabos.Workqueue
open List

open Library Function List Option

/-- The work item that the thread has unlinked and not called -/
def Place.taken : Place → List ℕ
  | .call work => [work]
  | _ => []

/-- The work item that was called and is not done -/
def Place.held : Place → List ℕ
  | .release work => [work]
  | .count done => done.toList
  | _ => []

/-- The permit for which the thread has not unlinked a work item -/
def Place.consumed : Place → ℕ
  | .first | .next _ | .test _ _ | .unlink _ => 1
  | .lock | .call _ | .release _ | .count _ | .unlock => 0

/-- The steps of the thread that only move it -/
inductive Moves (m : Queue) : Place → Prop
  | begins (here : m.thread = .first) : Moves m (.next m.list.head?)
  | advances (iter : Option ℕ) (here : m.thread = .next iter) : Moves m (.test iter (Cursor.next m.list iter))
  | picks (work : ℕ) (niter : Option ℕ) (here : m.thread = .test work niter)
      (ready : m.isSchedulable work = true) : Moves m (.unlink work)
  | passes (work : ℕ) (niter : Option ℕ) (here : m.thread = .test work niter)
      (idle : m.isSchedulable work = false) : Moves m (.next niter)

/-- Every step of a thread that finds a work item in its loop, with what the step needs -/
inductive Step (m : Queue) : Queue → Prop
  | schedules (entry : Entry) (delay : UInt32) : Step m (workqueueSchedule m entry delay)
  | countsFirst (work : ℕ) (there : work ∈ m.counting) :
      Step m
        { m with
          workCount := m.workCount + 1
          counting := m.counting.erase work
          counted := m.counted ++ [work]
          locking := m.locking ++ [work] }
  | countsMore (work : ℕ) (there : work ∈ m.counting) :
      Step m
        { m with
          workCount := m.workCount + 1
          counting := m.counting.erase work
          counted := m.counted ++ [work]
          adding := m.adding ++ [work] }
  | locks (work : ℕ) (there : work ∈ m.locking) :
      Step m
        { m with
          emptySemaphore := m.emptySemaphore - 1
          locking := m.locking.erase work
          adding := m.adding ++ [work] }
  | adds (work : ℕ) (there : work ∈ m.adding) : Step m (addWork m work)
  | startsNow (work : ℕ) (there : work ∈ m.starting) (now : m.delay work = 0) :
      Step m { m with starting := m.starting.erase work, semaphore := m.semaphore + 1 }
  | startsLater (work : ℕ) (there : work ∈ m.starting) (later : m.delay work ≠ 0) :
      Step m
        { m with
          starting := m.starting.erase work
          watchdog := Function.update m.watchdog work true }
  | expires (work : ℕ) (active : m.watchdog work = true) : Step m (workqueueDelayTimeout m work)
  | wakes (here : m.thread = .lock) (permit : 0 < m.semaphore) :
      Step m { m with semaphore := m.semaphore - 1, thread := .first }
  | moves (place : Place) (moved : Moves m place) : Step m { m with thread := place }
  | unlinks (work : ℕ) (here : m.thread = .unlink work) :
      Step m { m with list := m.list.erase work, thread := .call work }
  | calls (work : ℕ) (here : m.thread = .call work) :
      Step m { m with called := m.called ++ [work], runs := m.runs ++ [m.entry work], thread := .release work }
  | releases (work : ℕ) (here : m.thread = .release work) :
      Step m { m with watchdog := Function.update m.watchdog work false, thread := .count work }
  | finishes (done : Option ℕ) (place : Place) (here : m.thread = .count done)
      (leaves : place = .lock ∨ place = .unlock) :
      Step m
        { m with
          workCount := m.workCount - 1
          finished := m.finished ++ done.toList
          thread := place }
  | unlocks (here : m.thread = .unlock) :
      Step m { m with emptySemaphore := m.emptySemaphore + 1, thread := .lock }
  | waits (permits waiting : ℕ) : Step m { m with emptySemaphore := permits, waiting := waiting }

section Cases
variable {m next : Queue}

theorem proceed_cases {work : ℕ} (stepped : proceed m work = some next) : Step m next := by
  unfold proceed at stepped
  split at stepped
  · rename_i there
    obtain rfl := some.inj stepped
    unfold countWork
    split
    · exact .countsFirst work there
    · exact .countsMore work there
  split at stepped
  · rename_i there
    split at stepped
    · cases stepped
    obtain rfl := some.inj stepped
    exact .locks work there
  split at stepped
  · rename_i there
    obtain rfl := some.inj stepped
    exact .adds work there
  obtain ⟨there, rfl⟩ := ite_some_none_eq_some.mp stepped
  unfold startWork
  split
  · rename_i now
    exact .startsNow work there now
  · rename_i later
    exact .startsLater work there later

theorem workqueueThread_cases (found : ∀ niter, m.thread ≠ .test none niter)
    (stepped : workqueueThread m = some next) : Step m next := by
  unfold workqueueThread at stepped
  cases here : m.thread with
  | lock =>
    simp only [here] at stepped
    obtain ⟨permit, stepped⟩ := ite_none_left_eq_some.mp stepped
    obtain rfl := some.inj stepped
    exact .wakes here (Nat.pos_of_ne_zero permit)
  | first =>
    simp only [here] at stepped
    obtain rfl := some.inj stepped
    exact .moves _ (.begins here)
  | next iter =>
    simp only [here] at stepped
    obtain rfl := some.inj stepped
    exact .moves _ (.advances iter here)
  | test iter niter =>
    cases iter with
    | none => exact (found niter here).elim
    | some work =>
      simp only [here] at stepped
      split at stepped
      · rename_i ready
        obtain rfl := some.inj stepped
        exact .moves _ (.picks work niter here ready)
      · rename_i idle
        obtain rfl := some.inj stepped
        exact .moves _ (.passes work niter here (Bool.eq_false_iff.mpr idle))
  | unlink work =>
    simp only [here] at stepped
    obtain rfl := some.inj stepped
    exact .unlinks work here
  | call work =>
    simp only [here] at stepped
    obtain rfl := some.inj stepped
    exact .calls work here
  | release work =>
    simp only [here] at stepped
    obtain rfl := some.inj stepped
    exact .releases work here
  | count done =>
    simp only [here] at stepped
    split at stepped
    all_goals obtain rfl := some.inj stepped
    · exact .finishes done .unlock here (.inr rfl)
    · exact .finishes done .lock here (.inl rfl)
  | unlock =>
    simp only [here] at stepped
    obtain rfl := some.inj stepped
    exact .unlocks here

theorem step_cases {action : Action} (found : ∀ niter, m.thread ≠ .test none niter)
    (stepped : step m action = some next) : Step m next := by
  cases action with
  | queue entry =>
    obtain rfl := some.inj stepped
    exact .schedules entry 0
  | schedule entry delay =>
    obtain rfl := some.inj stepped
    exact .schedules entry delay
  | proceed work => exact proceed_cases stepped
  | expire work =>
    simp only [step] at stepped
    obtain ⟨active, rfl⟩ := ite_some_none_eq_some.mp stepped
    exact .expires work active
  | thread => exact workqueueThread_cases found stepped
  | waitEmpty | waitDone =>
    simp only [step] at stepped
    split at stepped
    · cases stepped
    · obtain rfl := some.inj stepped
      exact .waits _ _

end Cases

/-- An item that runs without delay -/
def immediate (delay : ℕ → UInt32) (work : ℕ) : Bool := delay work = 0

/-- The work items of all calls that have allocated one -/
def Queue.works (m : Queue) : List ℕ := m.submitted ++ (m.adding ++ (m.locking ++ m.counting))

/-- The work items that were on the list, in the order in which the thread takes them or has taken them -/
def Queue.line (m : Queue) : List ℕ := m.called ++ (m.thread.taken ++ m.list)

structure Known (nextWork : ℕ) (works : List ℕ) : Prop where
  distinct : works.Nodup
  below : ∀ work ∈ works, work < nextWork

/-- The thread takes every item once, and those without delay in order. -/
structure Lined (delay : ℕ → UInt32) (submitted line : List ℕ) : Prop where
  same : line.Perm submitted
  ordered : line.filter (immediate delay) = submitted.filter (immediate delay)

/-- An item is schedulable from the start without a delay, and after its delay else. -/
structure Expiry (nextWork : ℕ) (delay : ℕ → UInt32) (isSchedulable : ℕ → Bool) (expired submitted : List ℕ) :
    Prop where
  schedulable : ∀ work < nextWork, isSchedulable work = true ↔ delay work = 0 ∨ work ∈ expired
  known : ∀ work ∈ expired, work ∈ submitted

/-- Only items that wait for their delay have an active watchdog. -/
def Armed (list : List ℕ) (isSchedulable watchdog : ℕ → Bool) : Prop :=
  ∀ work, watchdog work = true → work ∈ list ∧ isSchedulable work = false

/-- The items whose call has not yet unlocked the semaphore or started the watchdog -/
structure Starting (delay : ℕ → UInt32) (submitted list : List ℕ) (isSchedulable watchdog : ℕ → Bool)
    (starting : List ℕ) : Prop where
  distinct : starting.Nodup
  known : ∀ work ∈ starting, work ∈ submitted
  later : ∀ work ∈ starting, delay work ≠ 0 →
    work ∈ list ∧ isSchedulable work = false ∧ watchdog work = false

/-- Each schedulable item on the list has a permit, except where its call has still to give it. -/
def Permits (delay : ℕ → UInt32) (isSchedulable : ℕ → Bool) (list starting : List ℕ) (semaphore consumed : ℕ) :
    Prop :=
  semaphore + consumed + starting.countP (immediate delay) = list.countP isSchedulable

/-- What the thread has passed is delayed, and it has a schedulable item before it. -/
def Scanning (delay : ℕ → UInt32) (isSchedulable : ℕ → Bool) (list : List ℕ) : Place → Prop
  | .first => ∃ work ∈ list, isSchedulable work = true
  | .next iter =>
    ∃ before rest, list = before ++ rest ∧ (∀ work ∈ before, delay work ≠ 0) ∧ iter = rest.head?
      ∧ ∃ work ∈ rest, isSchedulable work = true
  | .test iter niter =>
    ∃ before work rest, list = before ++ work :: rest ∧ (∀ work ∈ before, delay work ≠ 0) ∧ iter = some work
      ∧ (isSchedulable work = true ∨ niter = rest.head? ∧ ∃ work ∈ rest, isSchedulable work = true)
  | .unlink work =>
    ∃ before rest, list = before ++ work :: rest ∧ (∀ work ∈ before, delay work ≠ 0) ∧ isSchedulable work = true
  | .count done => done ≠ none
  | .lock | .call _ | .release _ | .unlock => True

/-- `work_count` is the number of the items that are counted and not done. -/
structure Counted (counted known called finished held : List ℕ) (workCount : Int) : Prop where
  same : counted.Perm known
  called : called = finished ++ held
  count : workCount = counted.length - finished.length

structure Delivery (m : Queue) : Prop where
  known : Known m.nextWork m.works
  lined : Lined m.delay m.submitted m.line
  expiry : Expiry m.nextWork m.delay m.isSchedulable m.expired m.submitted
  armed : Armed m.list m.isSchedulable m.watchdog
  starting : Starting m.delay m.submitted m.list m.isSchedulable m.watchdog m.starting
  ready : ∀ work ∈ m.called ++ m.thread.taken, m.isSchedulable work = true
  permits : Permits m.delay m.isSchedulable m.list m.starting m.semaphore m.thread.consumed
  scanning : Scanning m.delay m.isSchedulable m.list m.thread
  counted : Counted m.counted (m.submitted ++ (m.adding ++ m.locking)) m.called m.finished m.thread.held m.workCount
  runs : m.runs = m.called.map m.entry

section Delivery
variable {m next : Queue} {work : ℕ}

section
variable (delivery : Delivery m)
include delivery

theorem Delivery.below (there : work ∈ m.submitted) : work < m.nextWork :=
  delivery.known.below work (mem_append_left _ there)

theorem Delivery.submitted_distinct : m.submitted.Nodup :=
  (nodup_append.mp delivery.known.distinct).1

theorem Delivery.line_distinct : m.line.Nodup :=
  delivery.lined.same.nodup_iff.mpr delivery.submitted_distinct

theorem Delivery.list_distinct : m.list.Nodup :=
  (nodup_append.mp (nodup_append.mp delivery.line_distinct).2.1).2.1

theorem Delivery.of_line (there : work ∈ m.line) : work ∈ m.submitted :=
  delivery.lined.same.mem_iff.mp there

theorem Delivery.of_list (there : work ∈ m.list) : work ∈ m.submitted :=
  delivery.of_line (mem_append_right _ (mem_append_right _ there))

theorem Delivery.fresh (there : work ∈ m.adding) : work ∉ m.submitted := by
  intro known
  have apart := (nodup_append.mp delivery.known.distinct).2.2
  exact apart work known work (mem_append_left _ there) rfl

end

theorem Delivery.update_new {Value : Type*} (delivery : Delivery m) (values : ℕ → Value) (value : Value)
    (there : work ∈ m.submitted) : update values m.nextWork value work = values work :=
  update_of_ne (Nat.ne_of_lt (delivery.below there)) _ _

theorem Delivery.schedulable_iff (delivery : Delivery m) (there : work ∈ m.adding) :
    m.isSchedulable work = immediate m.delay work := by
  have below : work < m.nextWork :=
    delivery.known.below work (mem_append_right _ (mem_append_left _ there))
  have unexpired : work ∉ m.expired := fun later => delivery.fresh there (delivery.expiry.known work later)
  have iff := delivery.expiry.schedulable work below
  rw [or_iff_left unexpired] at iff
  exact Bool.eq_iff_iff.mpr (iff.trans decide_eq_true_iff.symm)

theorem Delivery.unlinks (delivery : Delivery m) (here : m.thread = .unlink work) :
    ∃ before rest, m.list = before ++ work :: rest ∧ m.list.erase work = before ++ rest
      ∧ (∀ other ∈ before, m.delay other ≠ 0) ∧ m.isSchedulable work = true := by
  have scanning := delivery.scanning
  rw [here] at scanning
  obtain ⟨before, rest, parts, delayed, ready⟩ := scanning
  refine ⟨before, rest, parts, ?_, delayed, ready⟩
  have distinct := delivery.list_distinct
  rw [parts] at distinct ⊢
  have apart : work ∉ before := fun there =>
    (nodup_append.mp distinct).2.2 work there work mem_cons_self rfl
  rw [erase_append_right _ apart, erase_cons_head]

theorem Moves.kept {place : Place} (moved : Moves m place) :
    place.taken = m.thread.taken ∧ place.held = m.thread.held ∧ place.consumed = m.thread.consumed := by
  cases moved with
  | begins here | advances iter here | picks work niter here ready | passes work niter here idle =>
    rw [here]
    exact ⟨rfl, rfl, rfl⟩

theorem perm_move (front : List ℕ) {rest : List ℕ} (there : work ∈ rest) :
    (front ++ [work] ++ rest.erase work).Perm (front ++ rest) := by
  rw [append_assoc]
  exact (perm_cons_erase there).symm.append_left front

section
variable (delivery : Delivery m) (stepped : Step m next)
include delivery stepped

theorem Delivery.known_step : Known next.nextWork next.works := by
  have known := delivery.known
  have moved {works : List ℕ} (same : works.Perm m.works) : Known m.nextWork works :=
    ⟨same.nodup_iff.mpr known.distinct, fun work there => known.below work (same.mem_iff.mp there)⟩
  cases stepped with
  | schedules entry delay =>
    have same : (workqueueSchedule m entry delay).works = m.works ++ [m.nextWork] := by
      simp only [Queue.works, workqueueSchedule, append_assoc]
    have fresh : m.nextWork ∉ m.works := fun there => Nat.lt_irrefl _ (known.below _ there)
    rw [same]
    refine ⟨nodup_append.mpr ⟨known.distinct, nodup_singleton _, ?_⟩, fun work there => ?_⟩
    · intro work there other new same
      rw [same, mem_singleton.mp new] at there
      exact fresh there
    · rcases mem_append.mp there with old | new
      · exact Nat.lt_succ_of_lt (known.below work old)
      · rw [mem_singleton.mp new]
        exact Nat.lt_succ_self _
  | countsFirst work there =>
    apply moved
    apply List.Perm.append_left
    apply List.Perm.append_left
    exact perm_move _ there
  | countsMore work there =>
    apply moved
    apply List.Perm.append_left
    have same : (m.adding ++ [work] ++ (m.locking ++ m.counting.erase work)).Perm
        (m.adding ++ (m.locking ++ [work] ++ m.counting.erase work)) := by
      simp only [append_assoc, singleton_append]
      exact perm_middle.symm.append_left m.adding
    exact same.trans ((perm_move _ there).append_left m.adding)
  | locks work there =>
    apply moved
    apply List.Perm.append_left
    rw [← append_assoc, ← append_assoc]
    exact (perm_move _ there).append_right m.counting
  | adds work there =>
    apply moved
    have same := (perm_move m.submitted there).append_right (m.locking ++ m.counting)
    rw [append_assoc, append_assoc m.submitted m.adding] at same
    exact same
  | _ => exact known

theorem Delivery.lined_step : Lined next.delay next.submitted next.line := by
  have lined := delivery.lined
  have placed {place : Place} (same : place.taken = m.thread.taken) :
      Lined m.delay m.submitted (m.called ++ (place.taken ++ m.list)) := by
    rw [same]
    exact lined
  cases stepped with
  | schedules entry delay =>
    have congr {works : List ℕ} (known : ∀ work ∈ works, work ∈ m.submitted) :
        works.filter (immediate (workqueueSchedule m entry delay).delay) = works.filter (immediate m.delay) := by
      apply filter_congr
      intro work there
      simp only [immediate, workqueueSchedule, delivery.update_new m.delay delay (known work there)]
    refine ⟨lined.same, (congr fun work there => delivery.of_line there).trans ?_⟩
    exact lined.ordered.trans (congr fun work there => there).symm
  | adds work there =>
    have same : (addWork m work).line = m.line ++ [work] := by
      simp only [Queue.line, addWork, append_assoc]
    rw [same]
    refine ⟨lined.same.append_right [work], ?_⟩
    simp only [addWork, filter_append, lined.ordered]
  | wakes here permit =>
    apply placed
    rw [here]
    rfl
  | moves place moved => exact placed moved.kept.1
  | unlinks work here =>
    obtain ⟨before, rest, parts, erased, delayed, ready⟩ := delivery.unlinks here
    have empty : before.filter (immediate m.delay) = [] := by
      apply filter_eq_nil_iff.mpr
      intro other there
      simpa only [immediate, decide_eq_true_eq] using delayed other there
    unfold Queue.line at lined ⊢
    rw [here, parts] at lined
    simp only [erased, Place.taken, nil_append, singleton_append] at lined ⊢
    refine ⟨(perm_middle.symm.append_left m.called).trans lined.same, ?_⟩
    rw [← lined.ordered]
    simp only [filter_append, filter_cons, empty, nil_append]
  | calls work here =>
    unfold Queue.line at lined ⊢
    rw [here] at lined
    simpa only [Place.taken, nil_append, append_assoc] using lined
  | releases work here =>
    apply placed
    rw [here]
    rfl
  | finishes done place here leaves =>
    apply placed
    rw [here]
    rcases leaves with rfl | rfl <;> rfl
  | unlocks here =>
    apply placed
    rw [here]
    rfl
  | _ => exact lined

theorem Delivery.expiry_step : Expiry next.nextWork next.delay next.isSchedulable next.expired next.submitted := by
  have expiry := delivery.expiry
  cases stepped with
  | schedules entry delay =>
    refine ⟨fun work below => ?_, expiry.known⟩
    by_cases same : work = m.nextWork
    · have unexpired : work ∉ m.expired := fun later =>
        Nat.ne_of_lt (delivery.below (expiry.known work later)) same
      simp only [workqueueSchedule, same, update_self, decide_eq_true_eq]
      rw [← same, or_iff_left unexpired]
    · simp only [workqueueSchedule, update_of_ne same]
      exact expiry.schedulable work (Nat.lt_of_le_of_ne (Nat.le_of_lt_succ below) same)
  | adds work there =>
    exact ⟨expiry.schedulable, fun other later => mem_append_left _ (expiry.known other later)⟩
  | expires work active =>
    have known := delivery.of_list (delivery.armed work active).1
    refine ⟨fun other below => ?_, fun other later => ?_⟩
    · by_cases same : other = work
      · simp [workqueueDelayTimeout, same]
      · simpa [workqueueDelayTimeout, same] using expiry.schedulable other below
    · rcases mem_append.mp later with old | new
      · exact expiry.known other old
      · rw [mem_singleton.mp new]
        exact known
  | _ => exact expiry

theorem Delivery.armed_step : Armed next.list next.isSchedulable next.watchdog := by
  have armed := delivery.armed
  cases stepped with
  | schedules entry delay =>
    intro work active
    by_cases same : work = m.nextWork
    · simp [workqueueSchedule, same] at active
    · simp only [workqueueSchedule, update_of_ne same] at active ⊢
      exact armed work active
  | adds work there => exact fun other active => ⟨mem_append_left _ (armed other active).1, (armed other active).2⟩
  | startsLater work there later =>
    intro other active
    by_cases same : other = work
    · obtain ⟨listed, waits, -⟩ := delivery.starting.later work there later
      rw [same]
      exact ⟨listed, waits⟩
    · simp only [update_of_ne same] at active
      exact armed other active
  | expires work active =>
    intro other still
    by_cases same : other = work
    · simp [workqueueDelayTimeout, same] at still
    · simp only [workqueueDelayTimeout, update_of_ne same] at still ⊢
      exact armed other still
  | unlinks work here =>
    obtain ⟨-, -, -, -, -, ready⟩ := delivery.unlinks here
    intro other active
    obtain ⟨listed, waits⟩ := armed other active
    have differs : other ≠ work := by
      rintro rfl
      exact Bool.eq_false_iff.mp waits ready
    exact ⟨(mem_erase_of_ne differs).mpr listed, waits⟩
  | releases work here =>
    intro other active
    by_cases same : other = work
    · simp [same] at active
    · simp only [update_of_ne same] at active
      exact armed other active
  | _ => exact armed

theorem Delivery.starting_step :
    Starting next.delay next.submitted next.list next.isSchedulable next.watchdog next.starting := by
  have starting := delivery.starting
  obtain ⟨distinct, known, later⟩ := starting
  cases stepped with
  | schedules entry delay =>
    refine ⟨distinct, known, fun work there delayed => ?_⟩
    simp only [workqueueSchedule, delivery.update_new _ _ (known work there)] at delayed ⊢
    exact later work there delayed
  | adds work there =>
    have fresh := delivery.fresh there
    refine ⟨?_, fun other new => ?_, fun other new delayed => ?_⟩
    · refine nodup_append.mpr ⟨distinct, nodup_singleton _, ?_⟩
      intro other old one new same
      rw [same, mem_singleton.mp new] at old
      exact fresh (known work old)
    · rcases mem_append.mp new with old | new
      · exact mem_append_left _ (known other old)
      · exact mem_append_right _ new
    · rcases mem_append.mp new with old | new
      · obtain ⟨listed, waits, inactive⟩ := later other old delayed
        exact ⟨mem_append_left _ listed, waits, inactive⟩
      · obtain rfl := mem_singleton.mp new
        refine ⟨mem_append_right _ mem_cons_self, ?_, ?_⟩
        · exact (delivery.schedulable_iff there).trans (decide_eq_false delayed)
        · apply Bool.eq_false_iff.mpr
          intro active
          exact fresh (delivery.of_list (delivery.armed other active).1)
  | startsNow work there now =>
    exact ⟨distinct.erase work, fun other still => known other (mem_of_mem_erase still),
      fun other still => later other (mem_of_mem_erase still)⟩
  | startsLater work there delayed =>
    refine ⟨distinct.erase work, fun other still => known other (mem_of_mem_erase still), ?_⟩
    intro other still
    obtain ⟨differs, still⟩ := distinct.mem_erase_iff.mp still
    simp only [update_of_ne differs]
    exact later other still
  | expires work active =>
    refine ⟨distinct, known, fun other there delayed => ?_⟩
    obtain ⟨listed, waits, inactive⟩ := later other there delayed
    have differs : other ≠ work := by
      rintro rfl
      exact Bool.eq_false_iff.mp inactive active
    simp only [workqueueDelayTimeout, update_of_ne differs]
    exact ⟨listed, waits, inactive⟩
  | unlinks work here =>
    obtain ⟨-, -, -, -, -, ready⟩ := delivery.unlinks here
    refine ⟨distinct, known, fun other there delayed => ?_⟩
    obtain ⟨listed, waits, inactive⟩ := later other there delayed
    have differs : other ≠ work := by
      rintro rfl
      exact Bool.eq_false_iff.mp waits ready
    exact ⟨(mem_erase_of_ne differs).mpr listed, waits, inactive⟩
  | releases work here =>
    refine ⟨distinct, known, fun other there delayed => ?_⟩
    obtain ⟨listed, waits, inactive⟩ := later other there delayed
    refine ⟨listed, waits, ?_⟩
    by_cases same : other = work
    · simp only [same, update_self]
    · simp only [update_of_ne same, inactive]
  | _ => exact ⟨distinct, known, later⟩

theorem Delivery.ready_step : ∀ work ∈ next.called ++ next.thread.taken, next.isSchedulable work = true := by
  have ready := delivery.ready
  have placed {place : Place} (same : place.taken = m.thread.taken) :
      ∀ work ∈ m.called ++ place.taken, m.isSchedulable work = true := by
    rw [same]
    exact ready
  cases stepped with
  | schedules entry delay =>
    intro work there
    have known : work ∈ m.submitted := by
      apply delivery.of_line
      rw [Queue.line, ← append_assoc]
      exact mem_append_left _ there
    simp only [workqueueSchedule, delivery.update_new _ _ known]
    exact ready work there
  | expires work active =>
    intro other there
    by_cases same : other = work
    · rw [same]
      exact update_self work true m.isSchedulable
    · simp only [workqueueDelayTimeout, update_of_ne same]
      exact ready other there
  | wakes here permit =>
    apply placed
    rw [here]
    rfl
  | moves place moved => exact placed moved.kept.1
  | unlinks work here =>
    obtain ⟨-, -, -, -, -, schedulable⟩ := delivery.unlinks here
    rw [here] at ready
    intro other there
    rcases mem_append.mp there with old | new
    · exact ready other (mem_append_left _ old)
    · rw [mem_singleton.mp new]
      exact schedulable
  | calls work here =>
    rw [here] at ready
    simpa only [Place.taken, append_nil] using ready
  | releases work here =>
    apply placed
    rw [here]
    rfl
  | finishes done place here leaves =>
    apply placed
    rw [here]
    rcases leaves with rfl | rfl <;> rfl
  | unlocks here =>
    apply placed
    rw [here]
    rfl
  | _ => exact ready

theorem Delivery.permits_step :
    Permits next.delay next.isSchedulable next.list next.starting next.semaphore next.thread.consumed := by
  have permits := delivery.permits
  unfold Permits at permits
  cases stepped with
  | schedules entry delay =>
    have starts : m.starting.countP (immediate (workqueueSchedule m entry delay).delay) =
        m.starting.countP (immediate m.delay) := by
      apply countP_congr
      intro work there
      simp only [immediate, workqueueSchedule, delivery.update_new _ _ (delivery.starting.known work there)]
    have lists : m.list.countP (workqueueSchedule m entry delay).isSchedulable = m.list.countP m.isSchedulable := by
      apply countP_congr
      intro work there
      simp only [workqueueSchedule, delivery.update_new _ _ (delivery.of_list there)]
    exact (congrArg (m.semaphore + m.thread.consumed + ·) starts).trans (permits.trans lists.symm)
  | adds work there =>
    simp only [Permits, addWork, countP_append, countP_singleton, delivery.schedulable_iff there]
    omega
  | startsNow work there now =>
    have counted := (perm_cons_erase there).countP_eq (immediate m.delay)
    rw [countP_cons_of_pos (by simpa only [immediate, decide_eq_true_eq] using now)] at counted
    simp only [Permits]
    omega
  | startsLater work there later =>
    have counted := (perm_cons_erase there).countP_eq (immediate m.delay)
    rw [countP_cons_of_neg (by simpa only [immediate, decide_eq_true_eq] using later)] at counted
    simp only [Permits]
    omega
  | expires work active =>
    obtain ⟨listed, waits⟩ := delivery.armed work active
    have counted : m.list.countP (update m.isSchedulable work true) =
        m.list.countP m.isSchedulable + 1 := by
      have updated := countP_update id m.isSchedulable true delivery.list_distinct listed
      simp only [id, waits, Bool.false_eq_true, ↓reduceIte] at updated
      exact updated
    simp only [Permits, workqueueDelayTimeout]
    omega
  | wakes here permit =>
    rw [here] at permits
    simp only [Permits, Place.consumed] at permits ⊢
    omega
  | moves place moved =>
    rw [← moved.kept.2.2] at permits
    exact permits
  | unlinks work here =>
    obtain ⟨before, rest, parts, erased, delayed, ready⟩ := delivery.unlinks here
    rw [here, parts] at permits
    simp only [Permits, erased, Place.consumed, countP_append, countP_cons, ready, ↓reduceIte]
      at permits ⊢
    omega
  | calls work here | releases work here | unlocks here =>
    rw [here] at permits
    exact permits
  | finishes done place here leaves =>
    rw [here] at permits
    rcases leaves with rfl | rfl <;> exact permits
  | _ => exact permits

end

theorem Scanning.mono {delay delay' : ℕ → UInt32} {isSchedulable isSchedulable' : ℕ → Bool} {list : List ℕ}
    {place : Place} (delays : ∀ work ∈ list, delay' work = delay work)
    (schedulable : ∀ work ∈ list, isSchedulable work = true → isSchedulable' work = true) (added : List ℕ)
    (scanning : Scanning delay isSchedulable list place) : Scanning delay' isSchedulable' (list ++ added) place := by
  cases place with
  | first =>
    obtain ⟨work, there, ready⟩ := scanning
    exact ⟨work, mem_append_left _ there, schedulable work there ready⟩
  | next iter =>
    obtain ⟨before, rest, rfl, delayed, cursor, work, there, ready⟩ := scanning
    refine ⟨before, rest ++ added, append_assoc .., fun work there => ?_, ?_, work, ?_, ?_⟩
    · rw [delays work (mem_append_left _ there)]
      exact delayed work there
    · rw [cursor, head?_append_of_ne_nil _ (ne_nil_of_mem there)]
    · exact mem_append_left _ there
    · exact schedulable work (mem_append_right _ there) ready
  | test iter niter =>
    obtain ⟨before, work, rest, rfl, delayed, cursor, ready⟩ := scanning
    refine ⟨before, work, rest ++ added, ?_, fun work there => ?_, cursor, ?_⟩
    · rw [append_assoc, cons_append]
    · rw [delays work (mem_append_left _ there)]
      exact delayed work there
    · rcases ready with ready | ⟨after, other, there, ready⟩
      · exact .inl (schedulable work (mem_append_right _ mem_cons_self) ready)
      · have listed := mem_append_right before (mem_cons_of_mem work there)
        refine .inr ⟨?_, other, mem_append_left _ there, schedulable other listed ready⟩
        rw [after, head?_append_of_ne_nil _ (ne_nil_of_mem there)]
  | unlink work =>
    obtain ⟨before, rest, rfl, delayed, ready⟩ := scanning
    refine ⟨before, rest ++ added, ?_, fun work there => ?_, ?_⟩
    · rw [append_assoc, cons_append]
    · rw [delays work (mem_append_left _ there)]
      exact delayed work there
    · exact schedulable work (mem_append_right _ mem_cons_self) ready
  | count done => exact scanning
  | lock | call work | release work | unlock => trivial

section
variable (delivery : Delivery m)
include delivery

theorem Delivery.scanning_moves {place : Place} (moved : Moves m place) :
    Scanning m.delay m.isSchedulable m.list place := by
  have scanning := delivery.scanning
  cases moved with
  | begins here =>
    rw [here] at scanning
    exact ⟨[], m.list, rfl, fun _ there => absurd there not_mem_nil, rfl, scanning⟩
  | advances iter here =>
    rw [here] at scanning
    obtain ⟨before, rest, parts, delayed, cursor, ready⟩ := scanning
    cases rest with
    | nil =>
      obtain ⟨work, there, -⟩ := ready
      cases there
    | cons work rest =>
      refine ⟨before, work, rest, parts, delayed, cursor, ?_⟩
      have distinct := delivery.list_distinct
      rw [parts] at distinct
      have fresh : work ∉ before := fun there =>
        (nodup_append.mp distinct).2.2 work there work mem_cons_self rfl
      obtain ⟨other, there, ready⟩ := ready
      rcases mem_cons.mp there with same | there
      · exact .inl (same ▸ ready)
      · refine .inr ⟨?_, other, there, ready⟩
        rw [cursor, parts, head?_cons, Cursor.next_middle fresh]
  | picks work niter here ready =>
    rw [here] at scanning
    obtain ⟨before, other, rest, parts, delayed, cursor, -⟩ := scanning
    obtain rfl := some.inj cursor
    exact ⟨before, rest, parts, delayed, ready⟩
  | passes work niter here idle =>
    rw [here] at scanning
    obtain ⟨before, other, rest, parts, delayed, cursor, ready⟩ := scanning
    obtain rfl := some.inj cursor
    obtain ⟨after, ready⟩ := ready.resolve_left (Bool.eq_false_iff.mp idle)
    refine ⟨before ++ [work], rest, ?_, fun other there => ?_, after, ready⟩
    · rw [parts, append_assoc, singleton_append]
    · rcases mem_append.mp there with old | new
      · exact delayed other old
      · rw [mem_singleton.mp new]
        intro now
        have listed : work ∈ m.list := by
          rw [parts]
          exact mem_append_right _ mem_cons_self
        have below := delivery.below (delivery.of_list listed)
        exact Bool.eq_false_iff.mp idle ((delivery.expiry.schedulable work below).mpr (.inl now))

theorem Delivery.scanning_step (stepped : Step m next) :
    Scanning next.delay next.isSchedulable next.list next.thread := by
  have scanning := delivery.scanning
  cases stepped with
  | schedules entry delay =>
    have delays : ∀ work ∈ m.list, (workqueueSchedule m entry delay).delay work = m.delay work := by
      intro work there
      exact delivery.update_new m.delay delay (delivery.of_list there)
    have schedulable : ∀ work ∈ m.list, m.isSchedulable work = true →
        (workqueueSchedule m entry delay).isSchedulable work = true := by
      intro work there ready
      exact (delivery.update_new m.isSchedulable _ (delivery.of_list there)).trans ready
    have kept := Scanning.mono delays schedulable [] scanning
    rw [append_nil] at kept
    exact kept
  | adds work there => exact Scanning.mono (fun _ _ => rfl) (fun _ _ ready => ready) [work] scanning
  | expires work active =>
    have schedulable : ∀ other ∈ m.list, m.isSchedulable other = true →
        update m.isSchedulable work true other = true := by
      intro other listed ready
      by_cases same : other = work
      · rw [same, update_self]
      · rw [update_of_ne same, ready]
    have kept := Scanning.mono (fun _ _ => rfl) schedulable [] scanning
    rw [append_nil] at kept
    exact kept
  | wakes here permit =>
    have permits := delivery.permits
    unfold Permits at permits
    have pending : 0 < m.list.countP m.isSchedulable := by omega
    exact countP_pos_iff.mp pending
  | moves place moved => exact delivery.scanning_moves moved
  | releases work here => exact some_ne_none work
  | finishes done place here leaves => rcases leaves with rfl | rfl <;> trivial
  | unlinks work here | calls work here | unlocks here => trivial
  | _ => exact scanning

theorem Delivery.counted_step (stepped : Step m next) :
    Counted next.counted (next.submitted ++ (next.adding ++ next.locking)) next.called next.finished
      next.thread.held next.workCount := by
  obtain ⟨same, called, count⟩ := delivery.counted
  have placed {place : Place} (held : place.held = m.thread.held) :
      Counted m.counted (m.submitted ++ (m.adding ++ m.locking)) m.called m.finished place.held m.workCount := by
    rw [held]
    exact delivery.counted
  cases stepped with
  | countsFirst work there =>
    refine ⟨?_, called, ?_⟩
    · have longer := same.append_right [work]
      simpa only [append_assoc] using longer
    · simp only [length_append, length_singleton]
      omega
  | countsMore work there =>
    refine ⟨?_, called, ?_⟩
    · have longer := same.append_right [work]
      have order : (m.locking ++ [work]).Perm ([work] ++ m.locking) := perm_append_comm
      simp only [append_assoc] at longer ⊢
      exact longer.trans ((order.append_left m.adding).append_left m.submitted)
    · simp only [length_append, length_singleton]
      omega
  | locks work there => exact ⟨same.trans ((perm_move _ there).symm.append_left m.submitted), called, count⟩
  | adds work there =>
    refine ⟨?_, called, count⟩
    have moved := (perm_move m.submitted there).append_right m.locking
    rw [append_assoc, append_assoc m.submitted m.adding] at moved
    exact same.trans moved.symm
  | wakes here permit =>
    apply placed
    rw [here]
    rfl
  | moves place moved => exact placed moved.kept.2.1
  | unlinks work here =>
    apply placed
    rw [here]
    rfl
  | calls work here =>
    rw [here] at called
    refine ⟨same, ?_, count⟩
    simp only [called, Place.held, append_nil]
  | releases work here =>
    apply placed
    rw [here]
    rfl
  | finishes done place here leaves =>
    have scanning := delivery.scanning
    rw [here] at called scanning
    obtain ⟨work, rfl⟩ := ne_none_iff_exists'.mp scanning
    refine ⟨same, ?_, ?_⟩
    · have free : place.held = [] := by
        rcases leaves with rfl | rfl <;> rfl
      rw [free, append_nil]
      exact called
    · simp only [toList_some, length_append, length_singleton]
      omega
  | unlocks here =>
    apply placed
    rw [here]
    rfl
  | _ => exact ⟨same, called, count⟩

theorem Delivery.runs_step (stepped : Step m next) : next.runs = next.called.map next.entry := by
  have runs := delivery.runs
  cases stepped with
  | schedules entry delay =>
    apply runs.trans
    apply map_congr_left
    intro work there
    have known := delivery.of_line (mem_append_left _ there)
    exact (delivery.update_new m.entry entry known).symm
  | calls work here => simp only [runs, map_append, map_cons, map_nil]
  | _ => exact runs

/-- The scan of the worker finds a work before the end of the list. -/
theorem Delivery.found (niter : Option ℕ) : m.thread ≠ .test none niter := by
  intro here
  have scanning := delivery.scanning
  rw [here] at scanning
  obtain ⟨before, work, rest, parts, delayed, cursor, ready⟩ := scanning
  cases cursor

/-- A step keeps every part of the delivery invariant. -/
theorem Delivery.step {action : Action} (stepped : step m action = some next) : Delivery next := by
  have stepped := step_cases delivery.found stepped
  exact ⟨delivery.known_step stepped, delivery.lined_step stepped, delivery.expiry_step stepped,
    delivery.armed_step stepped, delivery.starting_step stepped, delivery.ready_step stepped,
    delivery.permits_step stepped, delivery.scanning_step stepped, delivery.counted_step stepped,
    delivery.runs_step stepped⟩

end

theorem Delivery.workqueueCreate : Delivery workqueueCreate where
  known := ⟨nodup_nil, fun _ there => absurd there not_mem_nil⟩
  lined := ⟨.nil, rfl⟩
  expiry := ⟨fun _ below => absurd below (Nat.not_lt_zero _), fun _ there => absurd there not_mem_nil⟩
  armed _ active := Bool.noConfusion active
  starting := ⟨nodup_nil, fun _ there => absurd there not_mem_nil,
    fun _ there => absurd there not_mem_nil⟩
  ready _ there := absurd there not_mem_nil
  permits := rfl
  scanning := trivial
  counted := ⟨.nil, rfl, rfl⟩
  runs := rfl

/-- The delivery invariant holds in every run. -/
theorem Delivery.of_run {actions : List Action} (ran : run Workqueue.step Workqueue.workqueueCreate actions = some m) :
    Delivery m :=
  run_invariant Delivery Delivery.workqueueCreate ran fun delivery => delivery.step

/-- The count of the queue is the number of its unfinished works. -/
theorem Delivery.length_unfinished (delivery : Delivery m) :
    ((m.counted.filter (· ∉ m.finished)).length : Int) = m.workCount := by
  obtain ⟨same, called, count⟩ := delivery.counted
  have distinct : m.called.Nodup := (nodup_append.mp delivery.line_distinct).1
  rw [called] at distinct
  have known : ∀ work ∈ m.finished, work ∈ m.counted := by
    intro work done
    apply same.mem_iff.mpr
    apply mem_append_left
    apply delivery.of_line
    rw [Queue.line, called, append_assoc]
    exact mem_append_left _ done
  have counted : m.counted.Nodup := by
    have works : m.works = (m.submitted ++ (m.adding ++ m.locking)) ++ m.counting := by
      simp only [Queue.works, append_assoc]
    have all := delivery.known.distinct
    rw [works] at all
    exact same.nodup_iff.mpr (nodup_append.mp all).1
  have split : (m.counted.filter (· ∈ m.finished)).Perm m.finished := by
    apply (perm_ext_iff_of_nodup (counted.filter _) (nodup_append.mp distinct).1).mpr
    intro work
    simp only [mem_filter, decide_eq_true_eq]
    exact ⟨fun both => both.2, fun done => ⟨known work done, done⟩⟩
  have lengths := length_eq_length_filter_add (l := m.counted) (fun work => decide (work ∈ m.finished))
  rw [split.length_eq] at lengths
  simp only [← decide_not] at lengths
  omega

/-- The thread calls every item once and after its delay, those without delay in order, it always finds one, and the
semaphore and the counter are exact. -/
theorem workqueue_delivers (actions : List Action) (m : Queue)
    (ran : run Workqueue.step Workqueue.workqueueCreate actions = some m) :
    m.called.Nodup ∧ (∀ work ∈ m.called, work ∈ m.submitted) ∧ m.runs = m.called.map m.entry
      ∧ (∀ work ∈ m.called, m.delay work = 0 ∨ work ∈ m.expired)
      ∧ m.called.filter (immediate m.delay) <+: m.submitted.filter (immediate m.delay)
      ∧ (m.thread = .first → ∃ work ∈ m.list, m.isSchedulable work = true)
      ∧ (∀ niter, m.thread ≠ .test none niter)
      ∧ (m.starting = [] → m.semaphore + m.thread.consumed = m.list.countP m.isSchedulable)
      ∧ m.workCount = (m.counted.filter (· ∉ m.finished)).length := by
  have delivery := Delivery.of_run ran
  have submitted : ∀ work ∈ m.called, work ∈ m.submitted := fun work there =>
    delivery.of_line (mem_append_left _ there)
  refine ⟨(nodup_append.mp delivery.line_distinct).1, submitted, delivery.runs, fun work there => ?_, ?_,
    fun here => ?_, delivery.found, fun done => ?_, delivery.length_unfinished.symm⟩
  · apply (delivery.expiry.schedulable work (delivery.below (submitted work there))).mp
    exact delivery.ready work (mem_append_left _ there)
  · rw [← delivery.lined.ordered, Queue.line, filter_append]
    exact prefix_append _ _
  · have scanning := delivery.scanning
    rw [here] at scanning
    exact scanning
  · have permits := delivery.permits
    rw [done] at permits
    exact permits

/-- The first item is delayed, the second one overtakes it, and it comes before the third one. -/
def delayedThenTwo : List Action :=
  [.schedule ⟨4096, 0⟩ 5, .proceed 0, .proceed 0, .proceed 0, .proceed 0]
    ++ [.queue ⟨8192, 7⟩, .proceed 1, .proceed 1, .proceed 1] ++ replicate 10 .thread
    ++ [.queue ⟨8192, 9⟩, .proceed 2, .proceed 2, .proceed 2, .expire 0]
    ++ replicate 17 .thread

theorem workqueue_delivers_delayed :
    ∃ m, run Workqueue.step Workqueue.workqueueCreate delayedThenTwo = some m ∧ m.called = [1, 0, 2]
      ∧ m.called.Nodup ∧ m.workCount = (m.counted.filter (· ∉ m.finished)).length := by
  refine exists_final Queue.called [1, 0, 2] (by decide +kernel) fun m ran called => ?_
  obtain ⟨distinct, -, -, -, -, -, -, -, count⟩ := workqueue_delivers delayedThenTwo m ran
  exact ⟨called, distinct, count⟩

end Delivery

end Phabos.Workqueue
