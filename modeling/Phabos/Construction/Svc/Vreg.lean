import Mathlib.Logic.Function.Basic

/-
This file embeds apps/svc/vreg.c. The atomic operations, each write of a GPIO and each write of the power state are
single steps of a task.
-/

namespace Phabos.Power

structure VregData where
  gpio : Nat
  activeHigh : Nat
  defVal : Nat
  deriving DecidableEq, Repr

/-- The level that switches a regulator on or off -/
def VregData.level (data : VregData) (on : Bool) : Bool :=
  if on then data.activeHigh ≠ 0 else data.activeHigh = 0

/-- A regulator. A GPIO that is listed twice has one active level. -/
structure Vreg where
  vregs : List VregData
  oneLevel : ∀ data ∈ vregs, ∀ other ∈ vregs, data.gpio = other.gpio →
    ∀ on, data.level on = other.level on

/-- Where a task is in `vreg_get` and `vreg_put` -/
inductive Place
  | idle
  /-- A put has found a count that is not zero. -/
  | tested
  /-- A get (`on`) or a put writes the GPIOs that are left, and then the power state. -/
  | switching (on : Bool) (left : List VregData)
  deriving DecidableEq, Repr

/-- `gets` counts the increments and `puts` the decrements. -/
structure Machine where
  lines : Nat → Bool
  powerState : Bool
  useCount : BitVec 32
  places : Nat → Place
  gets : Nat
  puts : Nat

def gpioSetValue (lines : Nat → Bool) (gpio : Nat) (value : Bool) : Nat → Bool :=
  Function.update lines gpio value

/-- `vreg_config` before any task uses the regulator -/
def vregConfig (vreg : Vreg) (lines : Nat → Bool) : Machine where
  lines := vreg.vregs.foldl (fun current data => gpioSetValue current data.gpio (data.defVal ≠ 0)) lines
  powerState := false
  useCount := 0
  places := fun _ => .idle
  gets := 0
  puts := 0

/-- The start of `vreg_get` with its `atomic_inc` -/
def Machine.vregGet (vreg : Vreg) (m : Machine) (task : Nat) : Machine :=
  { m with
    useCount := m.useCount + 1
    gets := m.gets + 1
    places := Function.update m.places task (.switching true (if m.useCount + 1 = 1 then vreg.vregs else [])) }

/-- The start of `vreg_put` with its test -/
def Machine.vregPut (m : Machine) (task : Nat) : Machine :=
  if m.useCount = 0 then m else { m with places := Function.update m.places task .tested }

/-- The `atomic_dec` of `vreg_put` -/
def Machine.decrement (vreg : Vreg) (m : Machine) (task : Nat) : Machine :=
  { m with
    useCount := m.useCount - 1
    puts := m.puts + 1
    places := Function.update m.places task
      (if m.useCount - 1 = 0 then .switching false vreg.vregs else .idle) }

def Machine.writeGpio (m : Machine) (task : Nat) (on : Bool) (data : VregData) (left : List VregData) : Machine :=
  { m with
    lines := gpioSetValue m.lines data.gpio (data.level on)
    places := Function.update m.places task (.switching on left) }

def Machine.writePowerState (m : Machine) (task : Nat) (on : Bool) : Machine :=
  { m with powerState := on, places := Function.update m.places task .idle }

inductive Action
  | get (task : Nat)
  | put (task : Nat)
  | advance (task : Nat)
  deriving DecidableEq, Repr

def step (vreg : Vreg) (m : Machine) : Action → Option Machine
  | .get task => if m.places task = .idle then some (m.vregGet vreg task) else none
  | .put task => if m.places task = .idle then some (m.vregPut task) else none
  | .advance task =>
    match m.places task with
    | .idle => none
    | .tested => some (m.decrement vreg task)
    | .switching on (data :: left) => some (m.writeGpio task on data left)
    | .switching on [] => some (m.writePowerState task on)

/-- The regulator is in use. -/
def Machine.on (m : Machine) : Bool := m.useCount ≠ 0

/-- A call in progress has a write of a GPIO ahead that switches on or off. -/
def WriteAhead (places : Nat → Place) (on : Bool) (gpio : Nat) : Prop :=
  ∃ task left, places task = .switching on left ∧ ∃ data ∈ left, data.gpio = gpio

/-- A call in progress has a write of the power state ahead. -/
def PowerAhead (places : Nat → Place) (on : Bool) : Prop := ∃ task left, places task = .switching on left

/-- No increment overflows and no decrement finds zero. A write against the use count comes before the write of the
same GPIO, or of the power state, in a call in progress that agrees with the count. -/
def Orderly (m : Machine) : Action → Prop
  | .get _ => m.useCount ≠ -1
  | .put _ => True
  | .advance task =>
    match m.places task with
    | .idle => True
    | .tested => m.useCount ≠ 0
    | .switching on (data :: _) => m.on = on ∨ WriteAhead m.places m.on data.gpio
    | .switching on [] => m.on = on ∨ PowerAhead m.places m.on

end Phabos.Power
