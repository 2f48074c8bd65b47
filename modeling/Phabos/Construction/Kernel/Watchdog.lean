import Mathlib.Algebra.Ring.Nat
import Phabos.Library.Cursor

/-
This file embeds the tick rate of the machines, clock_gettime of lib/time.c and the conversions of
include/phabos/watchdog.h.
-/

namespace Phabos

/-- The machines that the kernel is built for. -/
inductive Machine
  | tsb
  | stellaris
  | stm32
  deriving DecidableEq, Repr

/-- The number of ticks in one second. -/
def HZ : Machine → ℕ
  | .tsb => 1000
  | .stellaris => 1000
  | .stm32 => 100

def ONE_SEC_IN_MSEC : ℕ := 1000

def TICK_IN_MSEC (machine : Machine) : ℕ := ONE_SEC_IN_MSEC / HZ machine

/-- The two fields of a time stamp. -/
structure Timespec where
  tvSec : ℕ
  tvNsec : ℕ
  deriving DecidableEq, Repr

/-- The monotonic clock leaves the ticks of the current second in the nanoseconds. -/
def clockMonotonicGettime (machine : Machine) (ticks : ℕ) : Timespec :=
  ⟨ticks / HZ machine, ticks % HZ machine⟩

/-- The ticks that `watchdog_start_msec` hands to `watchdog_start`. -/
def watchdogTicks (machine : Machine) (msec : ℕ) : ℕ :=
  let ticks := msec / TICK_IN_MSEC machine + if msec % TICK_IN_MSEC machine ≠ 0 then 1 else 0
  if ticks ≠ 0 then ticks else 1

end Phabos

/-
This part embeds the watchdogs of arch/arm/arm-v7m/watchdog.c.
-/

namespace Phabos.Watchdog
open Library

/-- The tick counts between which a watchdog runs. -/
structure WatchdogPriv where
  start : BitVec 64
  endTick : BitVec 64
  deriving DecidableEq, Repr

/-- A call of the timeout of a watchdog, with what was true of the watchdog when it was called. -/
structure Timeout where
  wd : ℕ
  arming : ℕ
  active : Bool
  cancelled : Bool
  endTick : BitVec 64
  deriving DecidableEq, Repr

/-- A pass over the list is in a callback between two turns of its loop, where `niter` is saved. -/
inductive Pass where
  | idle
  | calling (niter : Option ℕ)
  | finished
  deriving DecidableEq, Repr

/-- Watchdogs are known by their numbers, and `wdogHead` lists the active ones. The record keeps how often
each was armed, which ones the callbacks of the last pass cancelled and which timeouts were called. -/
structure Wdogs where
  ticks : BitVec 64
  wdogHead : List ℕ
  priv : ℕ → WatchdogPriv
  pass : Pass
  armings : ℕ → ℕ
  cancelled : ℕ → Bool
  timeouts : List Timeout

def Wdogs.boot : Wdogs := ⟨0, [], fun _ => ⟨0, 0⟩, .idle, fun _ => 0, fun _ => false, []⟩

/-- `watchdog_has_expired` -/
def watchdogHasExpired (s : Wdogs) (wd : ℕ) : Bool :=
  if (s.priv wd).start < (s.priv wd).endTick then decide ((s.priv wd).endTick ≤ s.ticks)
  else decide ((s.priv wd).endTick ≤ s.ticks) && decide (s.ticks < (s.priv wd).start)

/-- `watchdog_expiration_comparator` returns the difference as an `int`. -/
def watchdogExpirationComparator (priv : ℕ → WatchdogPriv) (wdog1 wdog2 : ℕ) : Int :=
  (((priv wdog1).endTick - (priv wdog2).endTick).setWidth 32).toInt

/-- `list_sorted_add` puts a node before the first one that compares greater. -/
def listSortedAdd (compare : ℕ → ℕ → Int) (node : ℕ) : List ℕ → List ℕ
  | [] => [node]
  | iter :: rest => if compare node iter ≥ 0 then iter :: listSortedAdd compare node rest else node :: iter :: rest

/-- `watchdog_start` arms a watchdog anew. -/
def watchdogStart (s : Wdogs) (wd : ℕ) (ticks : BitVec 32) : Wdogs :=
  if ticks = 0 then s else
    let priv := Function.update s.priv wd ⟨s.ticks, s.ticks + ticks.setWidth 64⟩
    { s with
      priv := priv
      wdogHead := listSortedAdd (watchdogExpirationComparator priv) wd (s.wdogHead.erase wd)
      armings := Function.update s.armings wd (s.armings wd + 1)
      cancelled := Function.update s.cancelled wd false }

/-- `watchdog_cancel` -/
def watchdogCancel (s : Wdogs) (wd : ℕ) : Wdogs := { s with wdogHead := s.wdogHead.erase wd }

/-- One turn of the loop of `watchdog_check_expired` with the node that `niter` names: the loop ends at the
list head or at a watchdog that has not expired, and else it calls the timeout. -/
def watchdogCheckNext (s : Wdogs) : Option ℕ → Wdogs
  | none => { s with pass := .finished }
  | some iter =>
    if watchdogHasExpired s iter then
      { watchdogCancel s iter with
        pass := .calling (Cursor.next s.wdogHead (some iter))
        timeouts := s.timeouts ++
          [⟨iter, s.armings iter, iter ∈ s.wdogHead, s.cancelled iter, (s.priv iter).endTick⟩] }
    else { s with pass := .finished }

/-- `watchdog_check_expired` starts with the first node. -/
def watchdogCheckExpired (s : Wdogs) : Wdogs :=
  watchdogCheckNext { s with cancelled := fun _ => false } s.wdogHead.head?

inductive Action where
  | tick (ticks : BitVec 64)
  | start (wd : ℕ) (ticks : BitVec 32)
  | cancel (wd : ℕ)
  | check
  | resume
  | leave
  deriving DecidableEq, Repr

/-- The tick interrupt runs a pass to its end. While it is in a callback, the callback starts and cancels
watchdogs, and then the loop goes on with the node that it saved. -/
def step (s : Wdogs) : Action → Option Wdogs
  | .tick ticks => if s.pass = .idle ∧ s.ticks ≤ ticks then some { s with ticks := ticks } else none
  | .start wd ticks => if s.pass = .finished ∨ ticks = 0 then none else some (watchdogStart s wd ticks)
  | .cancel wd =>
    match s.pass with
    | .idle => some (watchdogCancel s wd)
    | .calling _ => some { watchdogCancel s wd with cancelled := Function.update s.cancelled wd true }
    | .finished => none
  | .check => if s.pass = .idle then some (watchdogCheckExpired s) else none
  | .resume =>
    match s.pass with
    | .calling niter => some (watchdogCheckNext s niter)
    | _ => none
  | .leave => if s.pass = .finished then some { s with pass := .idle } else none

end Phabos.Watchdog
