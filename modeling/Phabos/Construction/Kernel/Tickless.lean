import Phabos.Construction.Kernel.Watchdog

/-
This file embeds the tickless timer: the SysTick part of arch/arm/arm-v7m/scheduler.c, `watchdog_start` of
arch/arm/arm-v7m/watchdog.c with `CONFIG_TICKLESS`, and the idle loop of arch/arm/arm-v7m/isr.c. `cycles` is
`CPU_FREQ / HZ`. SysTick counts from its reload register down to 0, so that a period lasts one processor cycle more than
the register says.
-/

namespace Phabos.Tickless
open Watchdog

def SYST_RVR_MAX : ℕ := 0xffffff

/-- `sched_max_multiplier` -/
def schedMaxMultiplier (cycles : ℕ) : ℕ := SYST_RVR_MAX / cycles

/-- Where a call of `watchdog_start` is after `get_ticks` -/
inductive Place where
  /-- The test of `wdog->list`, in the first locked section -/
  | test
  /-- `watchdog_cancel` of the watchdog, which was active -/
  | cancel
  /-- The last locked section -/
  | add
  deriving DecidableEq, Repr

/-- A call of `watchdog_start` that has not returned -/
structure Call where
  wd : ℕ
  ticks : BitVec 32
  currentTicks : BitVec 64
  place : Place
  deriving DecidableEq, Repr

/-- Where the idle loop is in `sched_configure_next_tick` -/
inductive Idle where
  | away
  /-- `get_ticks` of `watchdog_get_ticks_until_next_expiration` -/
  | getTicks
  /-- `list_first_entry` -/
  | first (ticks : BitVec 64)
  /-- The tests of `sched_set_tick_multiplier` -/
  | set (multiplier : BitVec 64)
  /-- The writes to the registers, after `ticks_increment` was written -/
  | program (multiplier : ℕ)
  deriving DecidableEq, Repr

/-- An interrupt of SysTick: `scheduler_ticks` in its handler, and the cycles that the timer had run for -/
structure Interrupt where
  ticks : BitVec 64
  elapsed : ℕ
  deriving DecidableEq, Repr

/-- A timeout that was called: the end of its watchdog, and the cycles that the timer had run for at the interrupt -/
structure Fired where
  endTick : BitVec 64
  elapsed : ℕ
  deriving DecidableEq, Repr

/-- `period` is what the reload register holds, in ticks, and `position` counts the cycles since the last reload. The
cycles that no tick has are `discarded`: those of the periods that were cut off, and one of each period that ended. -/
structure Timer where
  wdogs : Wdogs
  ticksIncrement : ℕ
  enabled : Bool
  period : ℕ
  position : ℕ
  elapsed : ℕ
  discarded : ℕ
  calls : ℕ → Option Call
  idle : Idle
  interrupts : List Interrupt
  fired : List Fired

/-- After `scheduler_arch_init` -/
def Timer.boot : Timer := ⟨.boot, 1, true, 1, 0, 0, 0, fun _ => none, .away, [], []⟩

section Timer
variable (cycles : ℕ) (s : Timer)

/-- `watchdog_get_ticks_until_next_expiration` -/
def ticksUntilNextExpiration (wdogs : Wdogs) : BitVec 64 :=
  match wdogs.wdogHead with
  | [] => BitVec.allOnes 64
  | wdog :: _ => (wdogs.priv wdog).endTick - wdogs.ticks

/-- The writes to the registers in `sched_set_tick_multiplier` -/
def Timer.program (multiplier : ℕ) : Timer :=
  { s with enabled := true, period := multiplier, discarded := s.discarded + s.position, position := 0 }

/-- `sched_set_tick_multiplier` up to the write of `ticks_increment`, and the multiplier to program if there is one -/
def setTickIncrement (multiplier : BitVec 64) : Option ℕ × Timer :=
  if multiplier = 0 then (none, s)
  else if multiplier = BitVec.allOnes 64 then (none, { s with enabled := false })
  else
    let multiplier := min multiplier.toNat (schedMaxMultiplier cycles)
    if s.ticksIncrement = multiplier then (none, s)
    else (some multiplier, { s with ticksIncrement := multiplier })

/-- `sched_set_tick_multiplier` with interrupts disabled -/
def setTickMultiplier (multiplier : BitVec 64) : Timer :=
  match setTickIncrement cycles s multiplier with
  | (none, s) => s
  | (some multiplier, s) => s.program multiplier

/-- The last locked section of `watchdog_start`: a watchdog that is listed is not added again, what the list becomes
then is left out. -/
def Timer.add (wd : ℕ) (ticks : BitVec 32) (currentTicks : BitVec 64) : Option Timer :=
  if wd ∈ s.wdogs.wdogHead then none
  else
    let wdogs := { watchdogStart { s.wdogs with ticks := currentTicks } wd ticks with ticks := s.wdogs.ticks }
    let s := { s with wdogs := wdogs }
    let ticksUntilFirstExpiration := ticksUntilNextExpiration wdogs
    some (if ticksUntilFirstExpiration.toNat < s.ticksIncrement then
      setTickMultiplier cycles s ticksUntilFirstExpiration else s)

/-- The watchdogs have changed in `watchdog_check_expired`. -/
def Timer.checked (wdogs : Wdogs) : Timer :=
  { s with
    wdogs := wdogs
    fired := s.fired ++ (wdogs.timeouts.drop s.wdogs.timeouts.length).map fun timeout : Timeout =>
      (⟨timeout.endTick, (s.interrupts.getLast?.map Interrupt.elapsed).getD 0⟩ : Fired) }

/-- The end of the period: the interrupt, and `systick_handler` up to the first timeout -/
def Timer.systick : Timer :=
  let wdogs := { s.wdogs with ticks := s.wdogs.ticks + BitVec.ofNat 64 s.ticksIncrement }
  let elapsed := s.elapsed + (s.period * cycles + 1 - s.position)
  let s := { s with
    wdogs := wdogs
    position := 0
    elapsed := elapsed
    discarded := s.discarded + 1
    interrupts := s.interrupts ++ [(⟨wdogs.ticks, elapsed⟩ : Interrupt)] }
  s.checked (watchdogCheckExpired wdogs)

/-- The next step of `sched_configure_next_tick` -/
def Timer.configureNextTick : Option Timer :=
  match s.idle with
  | .away =>
    some { s with idle := if s.wdogs.wdogHead = [] then .set (BitVec.allOnes 64) else .getTicks }
  | .getTicks => some { s with idle := .first s.wdogs.ticks }
  -- The first entry of a list that became empty is the list head: what is read there is left out.
  | .first ticks =>
    s.wdogs.wdogHead.head?.map fun wdog => { s with idle := .set ((s.wdogs.priv wdog).endTick - ticks) }
  | .set multiplier =>
    match setTickIncrement cycles s multiplier with
    | (none, s) => some { s with idle := .away }
    | (some multiplier, s) => some { s with idle := .program multiplier }
  | .program multiplier => some { s.program multiplier with idle := .away }

end Timer

inductive Event where
  /-- Cycles go by within a period. -/
  | wait (cycles : ℕ)
  | systick
  /-- A timeout returns, and the loop of `watchdog_check_expired` goes on. -/
  | resume
  /-- The interrupt returns. -/
  | leave
  | cancel (wd : ℕ)
  /-- `watchdog_start` is called and reads the ticks. -/
  | start (caller wd : ℕ) (ticks : BitVec 32)
  /-- The next locked section of a call of `watchdog_start` -/
  | lock (caller : ℕ)
  /-- The idle loop goes on. -/
  | idle
  deriving DecidableEq, Repr

/-- A call of `watchdog_start` that the interrupt has come into does not go on before the interrupt returns. -/
def step (cycles : ℕ) (s : Timer) : Event → Option Timer
  | .wait count =>
    if s.enabled = false then some s
    else if s.position + count < s.period * cycles + 1 then
      some { s with position := s.position + count, elapsed := s.elapsed + count }
    else none
  | .systick =>
    if s.enabled = true ∧ s.wdogs.pass = .idle then some (s.systick cycles) else none
  | .resume => (Watchdog.step s.wdogs .resume).map s.checked
  | .leave => (Watchdog.step s.wdogs .leave).map fun wdogs => { s with wdogs := wdogs }
  | .cancel wd => (Watchdog.step s.wdogs (.cancel wd)).map fun wdogs => { s with wdogs := wdogs }
  | .start caller wd ticks =>
    if s.calls caller = none ∧ ticks ≠ 0 then
      some { s with calls := Function.update s.calls caller (some ⟨wd, ticks, s.wdogs.ticks, .test⟩) }
    else none
  | .lock caller =>
    (s.calls caller).bind fun call =>
      let goto place := Function.update s.calls caller (some { call with place := place })
      let returned := Function.update s.calls caller none
      if s.wdogs.pass = .finished ∨ s.wdogs.pass ≠ .idle ∧ call.currentTicks ≠ s.wdogs.ticks then none
      else if call.place = .cancel then
        (Watchdog.step s.wdogs (.cancel call.wd)).map fun wdogs => { s with wdogs := wdogs, calls := goto .add }
      else if call.place = .test ∧ call.wd ∈ s.wdogs.wdogHead then some { s with calls := goto .cancel }
      else ({ s with calls := returned }).add cycles call.wd call.ticks call.currentTicks
  | .idle => if s.wdogs.pass = .idle then s.configureNextTick cycles else none

end Phabos.Tickless
