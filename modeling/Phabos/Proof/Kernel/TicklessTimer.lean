import Phabos.Construction.Kernel.Tickless
import Phabos.Proof.Kernel.WatchdogOrder

namespace Phabos.Tickless
open Library Watchdog List Option Function

/-- No interrupt and no call is in progress. -/
structure Timer.Quiet (s : Timer) : Prop where
  pass : s.wdogs.pass = .idle
  calls : ∀ caller, s.calls caller = none
  idle : s.idle = .away

/-- While a watchdog is active the timer runs and its next interrupt is not after the end of any of them. The ticks that
each interrupt counts are those that went by, and each timeout was called at the tick of its end. -/
structure InTime (cycles : ℕ) (s : Timer) : Prop where
  alarm : s.Quiet → ∀ wd ∈ s.wdogs.wdogHead, s.enabled = true ∧
    s.wdogs.ticks.toNat + s.period ≤ s.wdogs.due wd ∧ s.period ≤ schedMaxMultiplier cycles
  counts : ∀ interrupt ∈ s.interrupts, interrupt.ticks = BitVec.ofNat 64 (interrupt.elapsed / cycles)
  punctual : ∀ fired ∈ s.fired, fired.endTick = BitVec.ofNat 64 (fired.elapsed / cycles)

/-- The watchdog can be put in order, and it ends after this tick. The timer runs and the delay is not shorter than its
period; or it is shorter, no active watchdog ends at this tick, and the cycles that the new period cuts off are
less than a tick with those that were cut off before. -/
structure Timer.Startable (cycles : ℕ) (s : Timer) (call : Call) : Prop where
  order : ({ s.wdogs with ticks := call.currentTicks } : Wdogs).Comparable
    (call.currentTicks.toNat + call.ticks.toNat) s.wdogs.wdogHead
  ahead : s.wdogs.ticks.toNat < call.currentTicks.toNat + call.ticks.toNat
  alone : ∀ multiplier, s.idle ≠ .program multiplier
  reached : s.enabled = true ∧ s.wdogs.ticks.toNat + s.ticksIncrement ≤
        call.currentTicks.toNat + call.ticks.toNat ∨
      call.currentTicks.toNat + call.ticks.toNat < s.wdogs.ticks.toNat + s.ticksIncrement ∧
        (∀ wd ∈ s.wdogs.wdogHead, s.wdogs.ticks.toNat < s.wdogs.due wd) ∧ s.discarded + s.position < cycles

/-- `SYST_RVR_MAX` has room for a tick. -/
def Fits (cycles : ℕ) : Prop := 0 < cycles ∧ cycles ≤ SYST_RVR_MAX

/-- The idle loop stops the timer when no watchdog is active, programs no period that goes beyond the end of one, and
cuts off less than a tick. -/
def Reaching (cycles : ℕ) (s : Timer) : Idle → Prop
  | .set multiplier =>
    if multiplier = BitVec.allOnes 64 then s.wdogs.wdogHead = []
    else min multiplier.toNat (schedMaxMultiplier cycles) ≤ (ticksUntilNextExpiration s.wdogs).toNat
  | .program _ => s.discarded + s.position < cycles
  | .away | .getTicks | .first _ => True

/-- A SysTick interrupt does not come between the writes of the idle loop, the cycles that no tick has are less than a tick
with the one of its period, and each active watchdog ends at it or not before the next one. A watchdog is started and
cancelled as the order of the list and the timer allow, and the idle loop reaches no further than the first end. -/
def InStep (cycles : ℕ) (s : Timer) : Event → Prop
  | .systick =>
    (∀ multiplier, s.idle ≠ .program multiplier) ∧ s.discarded + 1 < cycles ∧
      ∀ wd ∈ s.wdogs.wdogHead, s.wdogs.due wd = s.wdogs.ticks.toNat + s.period ∨
        s.wdogs.ticks.toNat + 2 * s.period ≤ s.wdogs.due wd
  | .cancel wd => s.wdogs.InOrder (.cancel wd)
  | .lock caller => ∀ call ∈ s.calls caller,
      if call.place = .cancel then s.wdogs.InOrder (.cancel call.wd)
      else call.wd ∉ s.wdogs.wdogHead → s.Startable cycles call
  | .idle => Reaching cycles s s.idle
  | .wait _ | .resume | .leave | .start _ _ _ => True

/-- The idle loop is between its writes to the registers. -/
def Idle.programs : Idle → Bool
  | .program _ => true
  | _ => false

instance (idle : Idle) : Decidable (∀ multiplier, idle ≠ .program multiplier) :=
  decidable_of_iff (idle.programs = false) (by cases idle <;> simp [Idle.programs])

instance (cycles : ℕ) (s : Timer) : ∀ idle, Decidable (Reaching cycles s idle)
  | .set multiplier => inferInstanceAs (Decidable (if multiplier = BitVec.allOnes 64 then _ else _))
  | .program _ => inferInstanceAs (Decidable (_ < _))
  | .away | .getTicks | .first _ => inferInstanceAs (Decidable True)

instance (cycles : ℕ) : Decidable (Fits cycles) := inferInstanceAs (Decidable (_ ∧ _))

instance (cycles : ℕ) (s : Timer) (call : Call) : Decidable (s.Startable cycles call) :=
  decidable_of_iff (_ ∧ _ ∧ _ ∧ _)
    ⟨fun parts => ⟨parts.1, parts.2.1, parts.2.2.1, parts.2.2.2⟩, fun startable =>
      ⟨startable.order, startable.ahead, startable.alone, startable.reached⟩⟩

instance (cycles : ℕ) (s : Timer) : ∀ event, Decidable (InStep cycles s event)
  | .systick => inferInstanceAs (Decidable (_ ∧ _))
  | .cancel wd => inferInstanceAs (Decidable (s.wdogs.InOrder (.cancel wd)))
  | .lock caller => inferInstanceAs (Decidable (∀ call ∈ s.calls caller,
      if call.place = .cancel then s.wdogs.InOrder (.cancel call.wd)
      else call.wd ∉ s.wdogs.wdogHead → s.Startable cycles call))
  | .idle => inferInstanceAs (Decidable (Reaching cycles s s.idle))
  | .wait _ | .resume | .leave | .start _ _ _ => inferInstanceAs (Decidable True)

/-- The counts of the timer agree with the cycles that it ran for. -/
structure Clocked (cycles : ℕ) (s : Timer) : Prop where
  period : 0 < s.period ∧ s.period ≤ schedMaxMultiplier cycles
  position : s.position < s.period * cycles + 1
  clock : ∃ count, s.wdogs.ticks = BitVec.ofNat 64 count ∧ s.elapsed = count * cycles + s.position + s.discarded
  discarded : s.discarded < cycles
  counts : ∀ interrupt ∈ s.interrupts, interrupt.ticks = BitVec.ofNat 64 (interrupt.elapsed / cycles)
  punctual : ∀ fired ∈ s.fired, fired.endTick = BitVec.ofNat 64 (fired.elapsed / cycles)

/-- Each active watchdog ends at the next interrupt or later, or at this tick if that may be. -/
def Alarmed (s : Timer) (now : Prop) : Prop :=
  ∀ wd ∈ s.wdogs.wdogHead, s.enabled = true ∧
    (s.wdogs.ticks.toNat + s.period ≤ s.wdogs.due wd ∨ now ∧ s.wdogs.due wd = s.wdogs.ticks.toNat)

/-- The interrupt that counted the present tick was the last one. -/
def Interrupted (s : Timer) : Prop :=
  ∃ interrupt, s.interrupts.getLast? = some interrupt ∧ interrupt.ticks = s.wdogs.ticks

/-- What holds between the steps of a run -/
structure Sound (cycles : ℕ) (s : Timer) : Prop where
  wdogs : s.wdogs.Sound
  clocked : Clocked cycles s
  increment : (∀ multiplier, s.idle ≠ .program multiplier) → s.ticksIncrement = s.period
  alarm : Alarmed s (s.wdogs.pass ≠ .idle)
  interrupted : s.wdogs.pass ≠ .idle → Interrupted s
  programming : ∀ multiplier, s.idle = .program multiplier → s.wdogs.pass = .idle ∧ s.ticksIncrement = multiplier ∧
    0 < multiplier ∧ multiplier ≤ schedMaxMultiplier cycles ∧
      ∀ wd ∈ s.wdogs.wdogHead, s.wdogs.ticks.toNat + multiplier ≤ s.wdogs.due wd
  asked : ∀ caller call, s.calls caller = some call → call.ticks ≠ 0

theorem schedMaxMultiplier_pos {cycles : ℕ} (fits : Fits cycles) : 0 < schedMaxMultiplier cycles :=
  Nat.div_pos fits.2 fits.1

theorem schedMaxMultiplier_lt (cycles : ℕ) : schedMaxMultiplier cycles < 2 ^ 32 :=
  (Nat.div_le_self _ _).trans_lt (by decide)

section Wdogs
variable {w : Wdogs} {wd : ℕ}

theorem retick (sound : w.Sound) {ticks : BitVec 64} (same : w.pass = .idle ∨ ticks = w.ticks) :
    Wdogs.Sound { w with ticks := ticks } := by
  cases same with
  | inl idle =>
    refine sound.between rfl rfl (fun niter calling => ?_) fun done => ?_
    · cases idle.symm.trans calling
    · cases idle.symm.trans done
  | inr same =>
    subst same
    exact sound

theorem due_lt (w : Wdogs) (wd : ℕ) : w.due wd < 2 ^ 64 := (w.priv wd).endTick.isLt

theorem ticksUntil_first (sound : w.Sound) {first : ℕ} {rest : List ℕ} (head : w.wdogHead = first :: rest)
    (future : w.ticks.toNat ≤ w.due first) :
    (ticksUntilNextExpiration w).toNat = w.due first - w.ticks.toNat ∧ ∀ wd ∈ w.wdogHead, w.due first ≤ w.due wd := by
  constructor
  · have bound := due_lt w first
    unfold Wdogs.due at *
    unfold ticksUntilNextExpiration
    rw [head]
    simp only
    rw [BitVec.toNat_sub]
    omega
  · intro wd there
    rw [head] at there
    cases mem_cons.mp there with
    | inl same => exact le_of_eq (congrArg w.due same.symm)
    | inr later =>
      have sorted := sound.sorted
      rw [head] at sorted
      exact (pairwise_cons.mp sorted).1 wd later

theorem checkNext_frame (w : Wdogs) (niter : Option ℕ) :
    (watchdogCheckNext w niter).ticks = w.ticks ∧ (watchdogCheckNext w niter).priv = w.priv ∧
      (watchdogCheckNext w niter).wdogHead ⊆ w.wdogHead ∧ (watchdogCheckNext w niter).pass ≠ .idle := by
  unfold watchdogCheckNext
  cases niter with
  | none => exact ⟨rfl, rfl, fun _ there => there, nofun⟩
  | some iter =>
    dsimp only
    split
    · exact ⟨rfl, rfl, erase_subset, nofun⟩
    · exact ⟨rfl, rfl, fun _ there => there, nofun⟩

theorem checkNext_timeouts (w : Wdogs) (niter : Option ℕ) :
    ∀ timeout ∈ (watchdogCheckNext w niter).timeouts.drop w.timeouts.length,
      ∃ iter, niter = some iter ∧ watchdogHasExpired w iter = true ∧ timeout.endTick = (w.priv iter).endTick := by
  unfold watchdogCheckNext
  cases niter with
  | none =>
    intro timeout there
    rw [drop_length] at there
    cases there
  | some iter =>
    dsimp only
    split
    · rename_i expired
      intro timeout there
      change timeout ∈ (w.timeouts ++ [_]).drop w.timeouts.length at there
      rw [drop_left] at there
      obtain rfl := mem_singleton.mp there
      exact ⟨iter, rfl, expired, rfl⟩
    · intro timeout there
      rw [drop_length] at there
      cases there

/-- What the last section of `watchdog_start` makes of the list, when the watchdog is not active and the ticks that were
read are those of now if a pass is in progress -/
theorem started (sound : w.Sound) {ticks : BitVec 32} {currentTicks : BitVec 64}
    (same : w.pass = .idle ∨ currentTicks = w.ticks) (running : w.pass ≠ .finished) (fresh : wd ∉ w.wdogHead)
    (positive : ticks ≠ 0)
    (order : ({ w with ticks := currentTicks } : Wdogs).Comparable (currentTicks.toNat + ticks.toNat) w.wdogHead) :
    ∃ next, { watchdogStart { w with ticks := currentTicks } wd ticks with ticks := w.ticks } = next ∧ next.Sound ∧
      next.ticks = w.ticks ∧ next.pass = w.pass ∧ next.due wd = currentTicks.toNat + ticks.toNat ∧
      (∀ other ∈ w.wdogHead, next.due other = w.due other) ∧
      ∀ other, other ∈ next.wdogHead ↔ other = wd ∨ other ∈ w.wdogHead := by
  refine ⟨_, rfl, ?_, rfl, ?_, ?_, ?_, ?_⟩
  all_goals have erased : w.wdogHead.erase wd = w.wdogHead := erase_of_not_mem fresh
  · have before := retick sound same
    have begun : Wdogs.Sound (watchdogStart { w with ticks := currentTicks } wd ticks) := by
      refine before.start running positive ⟨?_, fun calling past => ?_⟩
      · change Wdogs.Comparable _ _ (w.wdogHead.erase wd)
        rw [erased]
        exact order
      · exact absurd (before.saved wd calling past) fresh
    refine retick begun ?_
    unfold watchdogStart
    rw [if_neg positive]
    exact same.imp_right Eq.symm
  · unfold watchdogStart
    rw [if_neg positive]
  · exact (start_times (s := { w with ticks := currentTicks }) wd positive order.fits).1
  · intro other there
    have differs : other ≠ wd := fun same => fresh (same ▸ there)
    have kept := (start_times (s := { w with ticks := currentTicks }) wd positive order.fits).2.2.2 other differs
    exact congrArg (fun priv : WatchdogPriv => priv.endTick.toNat) kept
  · intro other
    unfold watchdogStart
    rw [if_neg positive]
    change other ∈ listSortedAdd _ wd (w.wdogHead.erase wd) ↔ _
    rw [erased, listSortedAdd_perm.mem_iff, mem_cons]

end Wdogs

section Step
variable {cycles : ℕ} {s s' : Timer}

theorem Clocked.frame (clocked : Clocked cycles s) (period : s'.period = s.period) (position : s'.position = s.position)
    (ticks : s'.wdogs.ticks = s.wdogs.ticks) (elapsed : s'.elapsed = s.elapsed) (discarded : s'.discarded = s.discarded)
    (interrupts : s'.interrupts = s.interrupts) (fired : s'.fired = s.fired) : Clocked cycles s' := by
  refine ⟨?_, ?_, ?_, ?_, ?_, ?_⟩
  · rw [period]
    exact clocked.period
  · rw [position, period]
    exact clocked.position
  · rw [ticks, elapsed, position, discarded]
    exact clocked.clock
  · rw [discarded]
    exact clocked.discarded
  · rw [interrupts]
    exact clocked.counts
  · rw [fired]
    exact clocked.punctual

/-- A new period keeps the counts when the cycles that it cuts off are less than a tick in all. -/
theorem Clocked.program (clocked : Clocked cycles s) {multiplier : ℕ}
    (positive : 0 < multiplier) (low : multiplier ≤ schedMaxMultiplier cycles)
    (cut : s.discarded + s.position < cycles) : Clocked cycles (s.program multiplier) where
  period := ⟨positive, low⟩
  position := Nat.succ_pos _
  clock := by
    obtain ⟨count, ticks, elapsed⟩ := clocked.clock
    refine ⟨count, ticks, ?_⟩
    change s.elapsed = count * cycles + 0 + (s.discarded + s.position)
    omega
  discarded := cut
  counts := clocked.counts
  punctual := clocked.punctual

theorem Sound.checked {w : Wdogs} {niter : Option ℕ} (ticks : w.ticks = s.wdogs.ticks) (priv : w.priv = s.wdogs.priv)
    (head : w.wdogHead = s.wdogs.wdogHead) (timeouts : w.timeouts = s.wdogs.timeouts)
    (sound : (watchdogCheckNext w niter).Sound) (armed : ∀ wd ∈ w.wdogHead, (w.priv wd).start < (w.priv wd).endTick)
    (saved : ∀ iter, niter = some iter → watchdogHasExpired w iter = true → iter ∈ w.wdogHead)
    (clocked : Clocked cycles s) (interrupted : Interrupted s) (apart : ∀ multiplier, s.idle ≠ .program multiplier)
    (increment : s.ticksIncrement = s.period) (alarm : Alarmed s True)
    (asked : ∀ caller call, s.calls caller = some call → call.ticks ≠ 0) :
    Sound cycles (s.checked (watchdogCheckNext w niter)) := by
  obtain ⟨sameTicks, samePriv, fewer, passing⟩ := checkNext_frame w niter
  have due (wd : ℕ) : (watchdogCheckNext w niter).due wd = s.wdogs.due wd := by
    unfold Wdogs.due
    rw [samePriv, priv]
  have kept := sameTicks.trans ticks
  refine ⟨sound, { clocked with clock := ?_, punctual := ?_ }, fun _ => increment, ?_,
    fun _ => ?_, fun multiplier program => absurd program (apart multiplier), asked⟩
  · change ∃ count, (watchdogCheckNext w niter).ticks = _ ∧ _
    rw [kept]
    exact clocked.clock
  · intro fired there
    cases mem_append.mp there with
    | inl before => exact clocked.punctual fired before
    | inr new =>
      obtain ⟨timeout, called, rfl⟩ := mem_map.mp new
      rw [← timeouts] at called
      obtain ⟨iter, rfl, expired, same⟩ := checkNext_timeouts w niter timeout called
      have listed := saved iter rfl expired
      have past := (expired_iff (armed iter listed)).mp expired
      have ended : s.wdogs.due iter = s.wdogs.ticks.toNat := by
        obtain ⟨-, later | ⟨-, now⟩⟩ := alarm iter (head ▸ listed)
        · unfold Wdogs.due at past later
          rw [priv, ticks] at past
          have positive := clocked.period.1
          omega
        · exact now
      obtain ⟨interrupt, last, counted⟩ := interrupted
      have count := clocked.counts interrupt (mem_of_getLast? last)
      change timeout.endTick = BitVec.ofNat 64 (((s.interrupts.getLast?.map Interrupt.elapsed).getD 0) / cycles)
      rw [last, map_some, getD_some, ← count, counted, same, priv]
      exact BitVec.eq_of_toNat_eq ended
  · intro wd there
    obtain ⟨enabled, end'⟩ := alarm wd (head ▸ fewer there)
    refine ⟨enabled, ?_⟩
    change (watchdogCheckNext w niter).ticks.toNat + s.period ≤ (watchdogCheckNext w niter).due wd ∨
      _ ∧ (watchdogCheckNext w niter).due wd = (watchdogCheckNext w niter).ticks.toNat
    rw [due, kept]
    exact end'.imp_right fun now => ⟨passing, now.2⟩
  · obtain ⟨interrupt, last, counted⟩ := interrupted
    exact ⟨interrupt, last, counted.trans kept.symm⟩

theorem Sound.resume (sound : Sound cycles s) (stepped : Tickless.step cycles s .resume = some s') :
    Sound cycles s' := by
  obtain ⟨wdogs, moved, rfl⟩ := map_eq_some_iff.mp stepped
  have free : s.wdogs.InOrder .resume := trivial
  have ordered := sound.wdogs.step free moved
  obtain ⟨niter, pass, rfl⟩ := step_resume moved
  have calling : s.wdogs.pass ≠ .idle := by
    rw [pass]
    nofun
  have apart (multiplier : ℕ) : s.idle ≠ .program multiplier :=
    fun program => calling (sound.programming multiplier program).1
  refine Sound.checked rfl rfl rfl rfl ordered sound.wdogs.armed (fun iter same => sound.wdogs.saved iter (same ▸ pass))
    sound.clocked (sound.interrupted calling) apart (sound.increment apart) ?_ sound.asked
  intro wd there
  obtain ⟨enabled, end'⟩ := sound.alarm wd there
  exact ⟨enabled, end'.imp_right fun now => ⟨trivial, now.2⟩⟩

theorem Sound.leave (sound : Sound cycles s) (stepped : Tickless.step cycles s .leave = some s') :
    Sound cycles s' := by
  obtain ⟨wdogs, moved, rfl⟩ := map_eq_some_iff.mp stepped
  have free : s.wdogs.InOrder .leave := trivial
  have ordered := sound.wdogs.step free moved
  obtain ⟨finished, rfl⟩ := ite_some_none_eq_some.mp moved
  have left := sound.wdogs.left finished
  refine ⟨ordered, sound.clocked.frame rfl rfl rfl rfl rfl rfl rfl, sound.increment, ?_, fun running => ?_, ?_,
    sound.asked⟩
  · intro wd there
    obtain ⟨enabled, later | ⟨-, now⟩⟩ := sound.alarm wd there
    · exact ⟨enabled, Or.inl later⟩
    · have past := (expired_iff (sound.wdogs.armed wd there)).mpr now.le
      rw [left wd there] at past
      cases past
  · exact absurd rfl running
  · intro multiplier program
    have idle := (sound.programming multiplier program).1
    rw [finished] at idle
    cases idle

theorem Sound.systick (sound : Sound cycles s) (orderly : InStep cycles s .systick)
    (stepped : Tickless.step cycles s .systick = some s') : Sound cycles s' := by
  obtain ⟨⟨enabled, idle⟩, rfl⟩ := ite_some_none_eq_some.mp stepped
  obtain ⟨apart, few, ends⟩ := orderly
  have increment := sound.increment apart
  obtain ⟨count, ticks, elapsed⟩ := sound.clocked.clock
  have position := sound.clocked.position
  have counted : s.wdogs.ticks + BitVec.ofNat 64 s.ticksIncrement = BitVec.ofNat 64 (count + s.period) := by
    rw [ticks, increment, BitVec.ofNat_add]
  have spent : s.elapsed + (s.period * cycles + 1 - s.position) =
      (count + s.period) * cycles + 0 + (s.discarded + 1) := by
    rw [Nat.add_mul]
    omega
  have whole : (s.elapsed + (s.period * cycles + 1 - s.position)) / cycles = count + s.period := by
    have positive := Nat.zero_lt_of_lt few
    rw [spent, Nat.add_zero, Nat.add_comm, Nat.add_mul_div_right _ _ positive, Nat.div_eq_of_lt few, Nat.zero_add]
  have retimed : Wdogs.Sound { s.wdogs with ticks := s.wdogs.ticks + BitVec.ofNat 64 s.ticksIncrement } :=
    retick sound.wdogs (Or.inl idle)
  have checking : Watchdog.step { s.wdogs with ticks := s.wdogs.ticks + BitVec.ofNat 64 s.ticksIncrement } .check =
      some (watchdogCheckExpired { s.wdogs with ticks := s.wdogs.ticks + BitVec.ofNat 64 s.ticksIncrement }) :=
    if_pos idle
  have free : Wdogs.InOrder { s.wdogs with ticks := s.wdogs.ticks + BitVec.ofNat 64 s.ticksIncrement } .check := trivial
  have ordered := retimed.step free checking
  unfold Timer.systick
  unfold watchdogCheckExpired at *
  refine Sound.checked rfl rfl rfl rfl ordered sound.wdogs.armed ?_ ?_ ?_ apart increment ?_ sound.asked
  · intro iter first _
    exact mem_of_mem_head? first
  · refine { sound.clocked with
      position := Nat.succ_pos _, clock := ⟨count + s.period, counted, spent⟩, discarded := few, counts := ?_ }
    · intro interrupt there
      cases mem_append.mp there with
      | inl before => exact sound.clocked.counts interrupt before
      | inr new =>
        obtain rfl := mem_singleton.mp new
        change s.wdogs.ticks + _ = BitVec.ofNat 64 ((s.elapsed + (s.period * cycles + 1 - s.position)) / cycles)
        rw [whole]
        exact counted
  · exact ⟨_, List.getLast?_concat, rfl⟩
  · intro wd there
    have bound := due_lt s.wdogs wd
    have positive := sound.clocked.period.1
    have next : (s.wdogs.ticks + BitVec.ofNat 64 s.ticksIncrement).toNat = s.wdogs.ticks.toNat + s.period := by
      rw [BitVec.toNat_add, BitVec.toNat_ofNat, increment]
      have reached := ends wd there
      omega
    refine ⟨enabled, ?_⟩
    change (s.wdogs.ticks + BitVec.ofNat 64 s.ticksIncrement).toNat + s.period ≤ s.wdogs.due wd ∨
      True ∧ s.wdogs.due wd = (s.wdogs.ticks + BitVec.ofNat 64 s.ticksIncrement).toNat
    rw [next]
    obtain now | later := ends wd there
    · exact Or.inr ⟨trivial, now⟩
    · left
      omega

theorem setTickMultiplier_sooner {multiplier : BitVec 64} (positive : 0 < multiplier.toNat)
    (sooner : multiplier.toNat < s.ticksIncrement) (low : s.ticksIncrement ≤ schedMaxMultiplier cycles) :
    setTickMultiplier cycles s multiplier =
      { s.program multiplier.toNat with ticksIncrement := multiplier.toNat } := by
  have small := schedMaxMultiplier_lt cycles
  have some : multiplier ≠ 0 := by
    rintro rfl
    exact absurd positive (by decide)
  have timed : multiplier ≠ BitVec.allOnes 64 := by
    rintro rfl
    have most : (BitVec.allOnes 64).toNat = 2 ^ 64 - 1 := BitVec.toNat_allOnes
    omega
  have least : min multiplier.toNat (schedMaxMultiplier cycles) = multiplier.toNat := by omega
  unfold setTickMultiplier setTickIncrement
  rw [if_neg some, if_neg timed, least]
  simp only [if_neg sooner.ne']
  rfl

theorem setTickIncrement_cases (cycles : ℕ) (s : Timer) (multiplier : BitVec 64) :
    setTickIncrement cycles s multiplier = (none, s) ∨
      multiplier = BitVec.allOnes 64 ∧ setTickIncrement cycles s multiplier = (none, { s with enabled := false }) ∨
      multiplier ≠ BitVec.allOnes 64 ∧ 0 < multiplier.toNat ∧
        setTickIncrement cycles s multiplier = (some (min multiplier.toNat (schedMaxMultiplier cycles)),
          { s with ticksIncrement := min multiplier.toNat (schedMaxMultiplier cycles) }) := by
  unfold setTickIncrement
  split
  · exact Or.inl rfl
  · rename_i positive
    split
    · rename_i stop
      exact Or.inr (Or.inl ⟨stop, rfl⟩)
    · rename_i timed
      simp only
      split
      · exact Or.inl rfl
      · refine Or.inr (Or.inr ⟨timed, ?_, rfl⟩)
        exact Nat.pos_of_ne_zero fun zero => positive (BitVec.eq_of_toNat_eq zero)

section
variable (sound : Sound cycles s)
include sound

theorem Sound.wait {count : ℕ} (stepped : Tickless.step cycles s (.wait count) = some s') : Sound cycles s' := by
  simp only [Tickless.step] at stepped
  split at stepped
  · obtain rfl := some.inj stepped
    exact sound
  · obtain ⟨within, rfl⟩ := ite_some_none_eq_some.mp stepped
    refine { sound with
      clocked := { sound.clocked with position := within, clock := ?_ } }
    obtain ⟨total, ticks, elapsed⟩ := sound.clocked.clock
    refine ⟨total, ticks, ?_⟩
    change s.elapsed + count = total * cycles + (s.position + count) + s.discarded
    omega

theorem Sound.cancelled {wd : ℕ} (order : s.wdogs.InOrder (.cancel wd)) {wdogs : Wdogs} {calls : ℕ → Option Call}
    (moved : Watchdog.step s.wdogs (.cancel wd) = some wdogs)
    (asked : ∀ caller call, calls caller = some call → call.ticks ≠ 0) :
    Sound cycles { s with wdogs := wdogs, calls := calls } := by
  have ordered := sound.wdogs.step order moved
  obtain ⟨ticks, priv, list, pass⟩ : wdogs.ticks = s.wdogs.ticks ∧ wdogs.priv = s.wdogs.priv ∧
      wdogs.wdogHead ⊆ s.wdogs.wdogHead ∧ wdogs.pass = s.wdogs.pass := by
    rcases step_cancel moved with ⟨-, rfl⟩ | ⟨niter, -, rfl⟩
    · exact ⟨rfl, rfl, erase_subset, rfl⟩
    · exact ⟨rfl, rfl, erase_subset, rfl⟩
  have due (wd : ℕ) : wdogs.due wd = s.wdogs.due wd := by
    unfold Wdogs.due
    rw [priv]
  refine ⟨ordered, sound.clocked.frame rfl rfl ticks rfl rfl rfl rfl, sound.increment, fun wd there => ?_,
    fun running => ?_, fun multiplier program => ?_, asked⟩
  · obtain ⟨enabled, ending⟩ := sound.alarm wd (list there)
    refine ⟨enabled, ?_⟩
    change wdogs.ticks.toNat + s.period ≤ wdogs.due wd ∨ wdogs.pass ≠ .idle ∧ wdogs.due wd = wdogs.ticks.toNat
    rw [due, ticks, pass]
    exact ending
  · obtain ⟨interrupt, last, counted⟩ := sound.interrupted (pass ▸ running)
    exact ⟨interrupt, last, counted.trans ticks.symm⟩
  · obtain ⟨idle, increment, positive, low, reached⟩ := sound.programming multiplier program
    refine ⟨pass.trans idle, increment, positive, low, fun wd there => ?_⟩
    change wdogs.ticks.toNat + multiplier ≤ wdogs.due wd
    rw [due, ticks]
    exact reached wd (list there)

theorem Sound.calling {calls : ℕ → Option Call} (asked : ∀ caller call, calls caller = some call → call.ticks ≠ 0) :
    Sound cycles { s with calls := calls } :=
  { sound with clocked := sound.clocked.frame rfl rfl rfl rfl rfl rfl rfl, asked }

theorem Sound.relisted {next : Wdogs} (ordered : next.Sound) (ticks : next.ticks = s.wdogs.ticks)
    (pass : next.pass = s.wdogs.pass) (apart : ∀ multiplier, s.idle ≠ .program multiplier)
    (alarm : Alarmed { s with wdogs := next } (next.pass ≠ .idle)) : Sound cycles { s with wdogs := next } := by
  refine ⟨ordered, sound.clocked.frame rfl rfl ticks rfl rfl rfl rfl, sound.increment, alarm, fun running => ?_,
    fun multiplier program => absurd program (apart multiplier), sound.asked⟩
  obtain ⟨interrupt, last, counted⟩ := sound.interrupted (pass ▸ running)
  exact ⟨interrupt, last, counted.trans ticks.symm⟩

theorem Sound.program {next : Wdogs} (ordered : next.Sound) (ticks : next.ticks = s.wdogs.ticks)
    (pass : next.pass = s.wdogs.pass) {multiplier : ℕ} {idle : Idle} (apart : ∀ other, idle ≠ .program other)
    (positive : 0 < multiplier) (low : multiplier ≤ schedMaxMultiplier cycles)
    (cut : s.discarded + s.position < cycles)
    (reached : ∀ wd ∈ next.wdogHead, s.wdogs.ticks.toNat + multiplier ≤ next.due wd) :
    Sound cycles
      { ({ s with wdogs := next } : Timer).program multiplier with ticksIncrement := multiplier, idle := idle } := by
  refine ⟨ordered, (sound.clocked.program positive low cut).frame rfl rfl ticks rfl rfl rfl rfl, fun _ => rfl,
    fun wd there => ⟨rfl, Or.inl ?_⟩, fun running => ?_, fun other program => absurd program (apart other), sound.asked⟩
  · change next.ticks.toNat + multiplier ≤ next.due wd
    rw [ticks]
    exact reached wd there
  · obtain ⟨interrupt, last, counted⟩ := sound.interrupted (pass ▸ running)
    exact ⟨interrupt, last, counted.trans ticks.symm⟩

theorem Sound.add {call : Call} (positive : call.ticks ≠ 0)
    (same : s.wdogs.pass = .idle ∨ call.currentTicks = s.wdogs.ticks) (running : s.wdogs.pass ≠ .finished)
    (startable : call.wd ∉ s.wdogs.wdogHead → s.Startable cycles call)
    (added : s.add cycles call.wd call.ticks call.currentTicks = some s') : Sound cycles s' := by
  obtain ⟨fresh, added⟩ := ite_none_left_eq_some.mp added
  obtain ⟨order, ahead, alone, reached⟩ := startable fresh
  obtain ⟨next, made, ordered, ticks, pass, own, others, members⟩ :=
    started sound.wdogs same running fresh positive order
  simp only [made] at added
  obtain ⟨period, low⟩ := sound.clocked.period
  have increment := sound.increment alone
  have small := schedMaxMultiplier_lt cycles
  obtain ⟨first, rest, head⟩ : ∃ first rest, next.wdogHead = first :: rest :=
    exists_cons_of_ne_nil (ne_nil_of_mem ((members call.wd).mpr (Or.inl rfl)))
  have listed : first ∈ next.wdogHead := head ▸ mem_cons_self
  have future : next.ticks.toNat ≤ next.due first := by
    rw [ticks]
    cases (members first).mp listed with
    | inl new =>
      rw [new, own]
      omega
    | inr known =>
      rw [others first known]
      obtain ⟨-, later | ⟨-, now⟩⟩ := sound.alarm first known <;> omega
  obtain ⟨until', least⟩ := ticksUntil_first ordered head future
  rw [ticks] at until' future
  cases reached with
  | inl far =>
    -- The first watchdog ends at this tick, or no period is cut off.
    obtain ⟨enabled, far⟩ := far
    have alarm : Alarmed { s with wdogs := next } (next.pass ≠ .idle) := by
      intro wd there
      refine ⟨enabled, ?_⟩
      change next.ticks.toNat + s.period ≤ next.due wd ∨ next.pass ≠ .idle ∧ next.due wd = next.ticks.toNat
      rw [ticks, pass]
      cases (members wd).mp there with
      | inl new =>
        left
        rw [new, own]
        omega
      | inr known =>
        rw [others wd known]
        exact (sound.alarm wd known).2
    have relisted := sound.relisted ordered ticks pass alone alarm
    split at added
    · rename_i sooner
      have now : ticksUntilNextExpiration next = 0 := by
        apply BitVec.eq_of_toNat_eq
        change (ticksUntilNextExpiration next).toNat < s.ticksIncrement at sooner
        obtain ⟨-, later | ⟨-, now⟩⟩ := alarm first listed
        · change next.ticks.toNat + s.period ≤ next.due first at later
          rw [ticks] at later
          omega
        · change next.due first = next.ticks.toNat at now
          rw [until', now, ticks]
          exact Nat.sub_self _
      rw [now] at added
      obtain rfl := some.inj added
      exact relisted
    · obtain rfl := some.inj added
      exact relisted
  | inr near =>
    -- The watchdog ends before all others, and the timer is programmed for it.
    obtain ⟨near, later, cut⟩ := near
    have after (wd : ℕ) (known : wd ∈ s.wdogs.wdogHead) : s.wdogs.ticks.toNat + s.period ≤ s.wdogs.due wd := by
      obtain ⟨-, at_next | ⟨-, now⟩⟩ := sound.alarm wd known
      · exact at_next
      · exact absurd now (later wd known).ne'
    have ends : next.due first = call.currentTicks.toNat + call.ticks.toNat := by
      have bound := least call.wd ((members call.wd).mpr (Or.inl rfl))
      cases (members first).mp listed with
      | inl new => rw [new, own]
      | inr known =>
        have reached := after first known
        rw [own] at bound
        rw [others first known] at bound ⊢
        omega
    have sooner : (ticksUntilNextExpiration next).toNat < s.ticksIncrement := by
      rw [until', ends]
      omega
    have positive : 0 < (ticksUntilNextExpiration next).toNat := by
      rw [until', ends]
      omega
    have within : s.ticksIncrement ≤ schedMaxMultiplier cycles := increment ▸ low
    rw [if_pos sooner, setTickMultiplier_sooner (s := { s with wdogs := next }) positive sooner within] at added
    obtain rfl := some.inj added
    refine sound.program ordered ticks pass alone positive (sooner.le.trans within) cut fun wd there => ?_
    rw [until']
    have bound := least wd there
    omega

theorem Sound.goes {idle : Idle} (away : ∀ multiplier, s.idle ≠ .program multiplier)
    (apart : ∀ multiplier, idle ≠ .program multiplier) : Sound cycles { s with idle := idle } :=
  ⟨sound.wdogs, sound.clocked.frame rfl rfl rfl rfl rfl rfl rfl, fun _ => sound.increment away, sound.alarm,
    sound.interrupted, fun multiplier program => absurd program (apart multiplier), sound.asked⟩

theorem Sound.start {caller wd : ℕ} {ticks : BitVec 32}
    (stepped : Tickless.step cycles s (.start caller wd ticks) = some s') : Sound cycles s' := by
  obtain ⟨⟨-, positive⟩, rfl⟩ := ite_some_none_eq_some.mp stepped
  refine sound.calling fun other call there => ?_
  by_cases own : other = caller
  · rw [own, update_self] at there
    obtain rfl := some.inj there
    exact positive
  · rw [update_of_ne own] at there
    exact sound.asked other call there

theorem Sound.lock {caller : ℕ} (orderly : InStep cycles s (.lock caller))
    (stepped : Tickless.step cycles s (.lock caller) = some s') : Sound cycles s' := by
  obtain ⟨call, there, stepped⟩ := bind_eq_some_iff.mp stepped
  have allowed := orderly call there
  have positive := sound.asked caller call there
  obtain ⟨able, stepped⟩ := ite_none_left_eq_some.mp stepped
  have asked (now : Option Call) (kept : ∀ next, now = some next → next.ticks = call.ticks) :
      ∀ other next, update s.calls caller now other = some next → next.ticks ≠ 0 := by
    intro other next found
    by_cases own : other = caller
    · rw [own, update_self] at found
      rw [kept next found]
      exact positive
    · rw [update_of_ne own] at found
      exact sound.asked other next found
  have going (place : Place) (next : Call) (same : some { call with place := place } = some next) :
      next.ticks = call.ticks := by
    obtain rfl := some.inj same
    rfl
  split at stepped
  · rename_i cancels
    rw [if_pos cancels] at allowed
    obtain ⟨wdogs, moved, rfl⟩ := map_eq_some_iff.mp stepped
    exact sound.cancelled allowed moved (asked _ (going .add))
  · rename_i adds
    rw [if_neg adds] at allowed
    split at stepped
    · obtain rfl := some.inj stepped
      exact sound.calling (asked _ (going .cancel))
    · have returned := sound.calling (asked none nofun)
      refine returned.add positive ?_ (fun done => able (Or.inl done)) (fun fresh => ?_) stepped
      · by_contra neither
        obtain ⟨running, differs⟩ := not_or.mp neither
        exact able (Or.inr ⟨running, differs⟩)
      · have startable := allowed fresh
        exact { startable with }

theorem Sound.configureNextTick (fits : Fits cycles) (orderly : InStep cycles s .idle)
    (stepped : Tickless.step cycles s .idle = some s') : Sound cycles s' := by
  obtain ⟨between, stepped⟩ := ite_none_right_eq_some.mp stepped
  unfold InStep at orderly
  unfold Timer.configureNextTick at stepped
  cases place : s.idle with
  | away =>
    rw [place] at stepped
    obtain rfl := some.inj stepped
    refine sound.goes (by simp [place]) fun multiplier => ?_
    split <;> nofun
  | getTicks =>
    rw [place] at stepped
    obtain rfl := some.inj stepped
    exact sound.goes (by simp [place]) nofun
  | first ticks =>
    rw [place] at stepped
    obtain ⟨wdog, -, rfl⟩ := map_eq_some_iff.mp stepped
    exact sound.goes (by simp [place]) nofun
  | set multiplier =>
    have away (other : ℕ) : s.idle ≠ .program other := by simp [place]
    rw [place] at stepped orderly
    obtain same | ⟨stop, same⟩ | ⟨timed, positive, same⟩ := setTickIncrement_cases cycles s multiplier
    · simp only [same] at stepped
      obtain rfl := some.inj stepped
      exact sound.goes away nofun
    · simp only [same] at stepped
      rw [Reaching, if_pos stop] at orderly
      obtain rfl := some.inj stepped
      refine ⟨sound.wdogs, sound.clocked.frame rfl rfl rfl rfl rfl rfl rfl, fun _ => sound.increment away, ?_,
        sound.interrupted, nofun, sound.asked⟩
      intro wd there
      change wd ∈ s.wdogs.wdogHead at there
      rw [orderly] at there
      cases there
    · simp only [same] at stepped
      rw [Reaching, if_neg timed] at orderly
      obtain rfl := some.inj stepped
      refine ⟨sound.wdogs, sound.clocked.frame rfl rfl rfl rfl rfl rfl rfl, fun apart => absurd rfl (apart _),
        sound.alarm, sound.interrupted, ?_, sound.asked⟩
      intro program now
      obtain rfl := Idle.program.inj now
      have maximum := schedMaxMultiplier_pos fits
      refine ⟨between, rfl, by omega, min_le_right _ _, fun wd there => ?_⟩
      change wd ∈ s.wdogs.wdogHead at there
      change s.wdogs.ticks.toNat + _ ≤ s.wdogs.due wd
      obtain ⟨first, rest, head⟩ := exists_cons_of_ne_nil (ne_nil_of_mem there)
      have future : s.wdogs.ticks.toNat ≤ s.wdogs.due first := by
        obtain ⟨-, later | ⟨-, now⟩⟩ := sound.alarm first (head ▸ mem_cons_self) <;> omega
      obtain ⟨expiration, least⟩ := ticksUntil_first sound.wdogs head future
      have bound := least wd there
      omega
  | program multiplier =>
    obtain ⟨-, rfl, positive, low, reached⟩ := sound.programming multiplier place
    rw [place] at stepped orderly
    obtain rfl := some.inj stepped
    have apart (other : ℕ) : Idle.away ≠ .program other := nofun
    exact sound.program sound.wdogs rfl rfl apart positive low orderly reached

end

/-- A step keeps the next alarm at or before each expiration. -/
theorem Sound.step (fits : Fits cycles) (event : Event) (sound : Sound cycles s) (orderly : InStep cycles s event)
    (stepped : Tickless.step cycles s event = some s') : Sound cycles s' := by
  cases event with
  | wait count => exact sound.wait stepped
  | systick => exact sound.systick orderly stepped
  | resume => exact sound.resume stepped
  | leave => exact sound.leave stepped
  | cancel wd =>
    obtain ⟨wdogs, moved, rfl⟩ := map_eq_some_iff.mp stepped
    exact sound.cancelled orderly moved sound.asked
  | start caller wd ticks => exact sound.start stepped
  | lock caller => exact sound.lock orderly stepped
  | idle => exact sound.configureNextTick fits orderly stepped

theorem Sound.boot (fits : Fits cycles) : Sound cycles .boot where
  wdogs := ⟨nodup_nil, List.Pairwise.nil, nofun, nofun, nofun, nofun⟩
  clocked := ⟨⟨Nat.one_pos, schedMaxMultiplier_pos fits⟩, Nat.succ_pos _, ⟨0, rfl, by simp [Timer.boot]⟩,
    fits.1, nofun, nofun⟩
  increment _ := rfl
  alarm := nofun
  interrupted running := absurd rfl running
  programming := nofun
  asked := nofun

/-- No watchdog of a sound timer is missed. -/
theorem Sound.inTime (sound : Sound cycles s) : InTime cycles s where
  alarm quiet wd there := by
    obtain ⟨enabled, later | ⟨running, -⟩⟩ := sound.alarm wd there
    · exact ⟨enabled, later, sound.clocked.period.2⟩
    · exact absurd quiet.pass running
  counts := sound.clocked.counts
  punctual := sound.clocked.punctual

end Step

end Phabos.Tickless
