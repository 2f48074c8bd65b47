import Mathlib.Data.List.Count
import Phabos.Construction.Kernel.Watchdog
import Phabos.Library.Run

/-
This file embeds `clock_gettime` of lib/time.c and lib/sleep.c, for any `HZ` and a `time_t` of any width. A task sleeps
while interrupts and other tasks go on.
-/

namespace Phabos.Sleep
open Watchdog

def EINVAL : Int := 22

def ONE_SEC_IN_NSEC : ℕ := 1000000000

def TICK_IN_NSEC (hz : ℕ) : ℕ := ONE_SEC_IN_NSEC / hz

/-- `struct timespec`, whose fields are signed -/
structure Timespec (w : ℕ) where
  tvSec : BitVec w
  tvNsec : BitVec 32
  deriving DecidableEq, Repr

inductive ClockId where
  | monotonic
  | other
  deriving DecidableEq, Repr

section Conversions
variable {w : ℕ} (hz : ℕ)

/-- `clock_monotonic_gettime` -/
def clockMonotonicGettime (ticks : BitVec 64) : Timespec w :=
  ⟨BitVec.ofNat w (ticks.toNat / hz), BitVec.ofNat 32 (ticks.toNat % hz)⟩

/-- `clock_gettime` -/
def clockGettime (clkId : ClockId) (ticks : BitVec 64) : Except Int (Timespec w) :=
  if clkId = .monotonic then .ok (clockMonotonicGettime hz ticks) else .error (- EINVAL)

/-- The ticks that `watchdog_start_nsec` hands to `watchdog_start` -/
def nsecTicks (nsec : BitVec 32) : BitVec 32 :=
  let tick := BitVec.ofNat 32 (TICK_IN_NSEC hz)
  let ticks := nsec / tick + if nsec % tick ≠ 0 then 1 else 0
  if ticks ≠ 0 then ticks else 1

/-- The ticks that `watchdog_start_sec` hands to `watchdog_start` -/
def secTicks (sec : BitVec 32) : BitVec 32 :=
  let ticks := sec * BitVec.ofNat 32 hz
  if ticks ≠ 0 then ticks else 1

end Conversions

/-- What a task asks for. The nanoseconds of `nanosleep` are less than a second. -/
inductive Request (w : ℕ) where
  | sleep (seconds : BitVec 32)
  | usleep (usec : BitVec 32)
  | nanosleep (tvSec : BitVec w) (tvNsec : BitVec 32) (small : tvNsec.toNat < ONE_SEC_IN_NSEC)

/-- The argument of `nanosleep` -/
def Request.timespec {w : ℕ} : Request w → Timespec w
  | .sleep seconds => ⟨seconds.setWidth w, 0⟩
  | .usleep usec => ⟨(usec / 1000000).setWidth w, usec % 1000000 * 1000⟩
  | .nanosleep tvSec tvNsec _ => ⟨tvSec, tvNsec⟩

/-- `nanosleep` waits for the seconds and then for the nanoseconds. -/
inductive Stage where
  | sec
  | nsec
  deriving DecidableEq, Repr

/-- The ticks of a stage. The seconds are converted to `unsigned long`. -/
def Stage.ticks {w : ℕ} (hz : ℕ) (req : Timespec w) : Stage → BitVec 32
  | .sec => secTicks hz (BitVec.ofInt 32 req.tvSec.toInt)
  | .nsec => nsecTicks hz req.tvNsec

/-- Where the task is in `nanosleep` -/
inductive Place where
  /-- `get_ticks` of `watchdog_start` -/
  | getTicks (stage : Stage)
  /-- The locked section of `watchdog_start` -/
  | add (stage : Stage) (currentTicks : BitVec 64)
  /-- `semaphore_lock` -/
  | lock (stage : Stage)
  /-- `watchdog_delete` -/
  | delete
  | returned
  deriving DecidableEq, Repr

/-- The number of the watchdog of the task -/
def own : ℕ := 0

/-- A task in `nanosleep`, with the count of its semaphore. `elapsed` counts the ticks since the call. -/
structure Sleeper where
  wdogs : Wdogs
  semaphore : ℕ
  place : Place
  elapsed : ℕ

/-- `nanosleep` is called. -/
def Sleeper.called (wdogs : Wdogs) : Sleeper := ⟨wdogs, 0, .getTicks .sec, 0⟩

section Sleeper
variable (s : Sleeper)

/-- The watchdogs have changed in `watchdog_check_expired`: `sleep_timeout` is called for the own one. -/
def Sleeper.checked (wdogs : Wdogs) : Sleeper :=
  { s with
    wdogs := wdogs
    semaphore := s.semaphore + (wdogs.timeouts.drop s.wdogs.timeouts.length).countP fun timeout => timeout.wd = own }

/-- `systick_handler` up to the first timeout, when this many ticks have gone by -/
def Sleeper.systick (increment : ℕ) : Sleeper :=
  let wdogs := { s.wdogs with ticks := s.wdogs.ticks + BitVec.ofNat 64 increment }
  { s with wdogs := wdogs, elapsed := s.elapsed + increment }.checked (watchdogCheckExpired wdogs)

/-- The next step of `nanosleep` -/
def nanosleepStep {w : ℕ} (hz : ℕ) (req : Timespec w) : Option Sleeper :=
  match s.place with
  | .getTicks stage => some { s with place := .add stage s.wdogs.ticks }
  | .add stage currentTicks =>
    let wdogs := watchdogStart { s.wdogs with ticks := currentTicks } own (stage.ticks hz req)
    some { s with wdogs := { wdogs with ticks := s.wdogs.ticks }, place := .lock stage }
  | .lock stage =>
    match s.semaphore with
    | 0 => none
    | semaphore + 1 =>
      some { s with
        semaphore := semaphore
        place := match stage with
          | .sec => .getTicks .nsec
          | .nsec => .delete }
  | .delete => some { s with wdogs := watchdogCancel s.wdogs own, place := .returned }
  | .returned => none

end Sleeper

inductive Event where
  | systick (increment : ℕ)
  /-- A timeout returns, and the loop of `watchdog_check_expired` goes on. -/
  | resume
  /-- The interrupt returns. -/
  | leave
  /-- A callback or another task starts or cancels another watchdog. -/
  | start (wd : ℕ) (ticks : BitVec 32)
  | cancel (wd : ℕ)
  /-- The task goes on. -/
  | advance
  deriving DecidableEq, Repr

def step {w : ℕ} (hz : ℕ) (req : Timespec w) (s : Sleeper) : Event → Option Sleeper
  | .systick increment => if s.wdogs.pass = .idle then some (s.systick increment) else none
  | .resume => (Watchdog.step s.wdogs .resume).map s.checked
  | .leave => (Watchdog.step s.wdogs .leave).map fun wdogs => { s with wdogs := wdogs }
  | .start wd ticks =>
    if wd = own then none else (Watchdog.step s.wdogs (.start wd ticks)).map fun wdogs => { s with wdogs := wdogs }
  | .cancel wd =>
    if wd = own then none else (Watchdog.step s.wdogs (.cancel wd)).map fun wdogs => { s with wdogs := wdogs }
  | .advance => if s.wdogs.pass = .idle then nanosleepStep s hz req else none

end Phabos.Sleep
