import Mathlib.Data.BitVec
import Phabos.Construction.Kernel.Watchdog

/-
This file embeds the registration of GPIO controllers in drivers/gpio/core.c.
-/

namespace Phabos.Gpio
open Watchdog (listSortedAdd)

def EBUSY : Int := 16

structure GpioDevice where
  base : BitVec 32
  count : BitVec 32
  deriving DecidableEq, Repr

/-- A controller is known by the address of its structure, and `devices` lists the registered ones. -/
structure Core where
  device : ℕ → GpioDevice
  devices : List ℕ
  lineCount : BitVec 32

def Core.boot (device : ℕ → GpioDevice) : Core := ⟨device, [], 0⟩

/-- The test of a line against a controller -/
def GpioDevice.covers (dev : GpioDevice) (line : BitVec 32) : Bool :=
  decide (dev.base ≤ line) && decide (line < dev.base + dev.count)

/-- `_gpio_get_device` -/
def gpioGetDevice (s : Core) (line : BitVec 32) : Option ℕ := s.devices.find? fun gpio => (s.device gpio).covers line

/-- A turn of the loop of `gpio_find_base` -/
def findBaseNext (count base : BitVec 32) (dev : GpioDevice) : BitVec 32 :=
  let last := base + count - 1
  if dev.covers base || dev.covers last then dev.base + dev.count else base

def gpioFindBase (s : Core) (count : BitVec 32) : BitVec 32 :=
  s.devices.foldl (fun base gpio => findBaseNext count base (s.device gpio)) 0

/-- `gpio_compare` returns the difference as an `int`. -/
def gpioCompare (device : ℕ → GpioDevice) (gpio1 gpio2 : ℕ) : Int :=
  ((device gpio1).base - (device gpio2).base).toInt

/-- The end of a registration that succeeds -/
def Core.add (s : Core) (gpio : ℕ) : Core :=
  { s with
    devices := listSortedAdd (gpioCompare s.device) gpio s.devices
    lineCount := s.lineCount + (s.device gpio).count }

def gpioDeviceRegister (s : Core) (gpio : ℕ) : Int × Core :=
  let dev := s.device gpio
  if dev.base ≠ - 1 then
    if (gpioGetDevice s dev.base).isSome || (gpioGetDevice s (dev.base + dev.count - 1)).isSome then (- EBUSY, s)
    else (0, s.add gpio)
  else
    let device := Function.update s.device gpio { dev with base := gpioFindBase s dev.count }
    (0, { s with device := device }.add gpio)

/-- A driver fills in its structure, with the base `-1` for any base, and registers it. -/
structure Registration where
  gpio : ℕ
  base : BitVec 32
  count : BitVec 32
  deriving DecidableEq, Repr

/-- The structure of a registered controller is not filled in again. -/
def step (s : Core) (r : Registration) : Option Core :=
  if r.gpio ∈ s.devices then none
  else some (gpioDeviceRegister { s with device := Function.update s.device r.gpio ⟨r.base, r.count⟩ } r.gpio).2

end Phabos.Gpio

/-
This part embeds the operations on the pins of a TCA64xx in drivers/gpio/tca64xx.c. A transfer over I2C is one access to
a register of the chip, which succeeds or fails without effect.
-/

namespace Phabos.Tca64xx

def EIO : Int := 5

def EINVAL : Int := 22

/-- `tca64xx_part` -/
inductive Part where
  | tca6408
  | tca6416
  | tca6424
  deriving DecidableEq, Repr

def getNrGpios : Part → ℕ
  | .tca6408 => 8
  | .tca6416 => 16
  | .tca6424 => 24

/-- An `int` as a `uint8_t` -/
def uint8 (value : Int) : ℕ := (value % 256).toNat

/-- What `get_config_reg`, `get_polarity_reg`, `get_output_reg` and `get_input_reg` share: the `which` that they are
given, and the register of the first pins of each part -/
def getReg (first : Part → ℕ) (part : Part) (which : ℕ) : ℕ :=
  if getNrGpios part ≤ uint8 which then uint8 (- EINVAL) else first part + uint8 which / 8

def getConfigReg : Part → ℕ → ℕ := getReg fun
  | .tca6408 => 0x03
  | .tca6416 => 0x06
  | .tca6424 => 0x0C

def getPolarityReg : Part → ℕ → ℕ := getReg fun
  | .tca6408 => 0x02
  | .tca6416 => 0x04
  | .tca6424 => 0x08

def getOutputReg : Part → ℕ → ℕ := getReg fun
  | .tca6408 => 0x01
  | .tca6416 => 0x02
  | .tca6424 => 0x04

def getInputReg : Part → ℕ → ℕ := getReg fun _ => 0x00

/-- A register that is read and written back with one bit changed -/
structure Update where
  reg : ℕ
  bit : ℕ
  value : Bool
  deriving DecidableEq, Repr

/-- `val |= (1 << (which % 8))`, or `val &= ~(1 << (which % 8))` -/
def Update.apply (update : Update) (val : BitVec 8) : BitVec 8 :=
  if update.value then val ||| 1#8 <<< update.bit else val &&& ~~~ (1#8 <<< update.bit)

def tca64xxSet (part : Part) (which value : ℕ) : List Update :=
  [⟨getOutputReg part which, which % 8, decide (value ≠ 0)⟩]

def tca64xxSetDirectionIn (part : Part) (which : ℕ) : List Update :=
  [⟨getConfigReg part which, which % 8, true⟩]

def tca64xxSetDirectionOut (part : Part) (which value : ℕ) : List Update :=
  ⟨getConfigReg part which, which % 8, false⟩ :: tca64xxSet part which value

/-- The pin and the value are of type `uint8_t`. -/
def tca64xxSetPolarityInverted (part : Part) (which inverted : ℕ) : List Update :=
  [⟨getPolarityReg part which, uint8 which % 8, decide (uint8 inverted ≠ 0)⟩]

inductive Operation where
  | set (which value : ℕ)
  | setDirectionIn (which : ℕ)
  | setDirectionOut (which value : ℕ)
  | setPolarityInverted (which inverted : ℕ)
  deriving DecidableEq, Repr

def Operation.which : Operation → ℕ
  | .set which _ | .setDirectionIn which | .setDirectionOut which _ | .setPolarityInverted which _ => which

def Operation.updates (part : Part) : Operation → List Update
  | .set which value => tca64xxSet part which value
  | .setDirectionIn which => tca64xxSetDirectionIn part which
  | .setDirectionOut which value => tca64xxSetDirectionOut part which value
  | .setPolarityInverted which inverted => tca64xxSetPolarityInverted part which inverted

/-- What an operation returns when a transfer returned an error -/
def Operation.error : Operation → Int → Int
  | .setPolarityInverted _ _, _ => - EIO
  | .set _ _, ret | .setDirectionIn _, ret | .setDirectionOut _ _, ret => ret

/-- A call in progress: what it has written and what is left, the value that it has read for the next write, and how
many transfers it made -/
structure Call where
  operation : Operation
  done : List Update
  pending : List Update
  val : Option (BitVec 8)
  accesses : ℕ
  deriving DecidableEq, Repr

/-- What an operation returned, and how many transfers it made -/
structure Ended where
  operation : Operation
  ret : Int
  accesses : ℕ
  deriving DecidableEq, Repr

/-- The registers of the chip, the calls in progress, the calls that ended, and what was written -/
structure Expander where
  regs : ℕ → BitVec 8
  calls : ℕ → Option Call
  ended : List Ended
  written : List Update

def Expander.start (regs : ℕ → BitVec 8) : Expander := ⟨regs, fun _ => none, [], []⟩

/-- A call returns. -/
def Expander.return (s : Expander) (caller : ℕ) (call : Call) (ret : Int) (accesses : ℕ) : Expander :=
  { s with
    calls := Function.update s.calls caller none
    ended := s.ended ++ [(⟨call.operation, ret, accesses⟩ : Ended)] }

/-- The next transfer of a call, and its result -/
def Expander.access (s : Expander) (caller : ℕ) (call : Call) (ret : Int) : Option Expander :=
  match call.pending with
  | [] => none
  | update :: rest =>
    let goesOn call := { s with calls := Function.update s.calls caller (some call) }
    match call.val with
    | none =>
      if (update.reg : Int) < 0 then some (s.return caller call (- EIO) call.accesses)
      else if ret ≠ 0 then some (s.return caller call (call.operation.error ret) (call.accesses + 1))
      else some (goesOn { call with val := some (s.regs update.reg), accesses := call.accesses + 1 })
    | some val =>
      if ret ≠ 0 then some (s.return caller call (call.operation.error ret) (call.accesses + 1))
      else
        let s := { s with
          regs := Function.update s.regs update.reg (update.apply val), written := s.written ++ [update] }
        if rest = [] then some (s.return caller call 0 (call.accesses + 1))
        else
          let call := { call with
            done := call.done ++ [update], pending := rest, val := none, accesses := call.accesses + 1 }
          some { s with calls := Function.update s.calls caller (some call) }

inductive Event where
  | call (caller : ℕ) (operation : Operation)
  /-- The next transfer of a call ends with this result. -/
  | access (caller : ℕ) (ret : Int)
  deriving DecidableEq, Repr

def step (part : Part) (s : Expander) : Event → Option Expander
  | .call caller operation =>
    if s.calls caller = none then
      let call : Call := ⟨operation, [], operation.updates part, none, 0⟩
      some { s with calls := Function.update s.calls caller (some call) }
    else none
  | .access caller ret => (s.calls caller).bind fun call => s.access caller call ret

end Phabos.Tca64xx

/-
This part embeds the interrupts of a TCA64xx in drivers/gpio/tca64xx.c. What the driver does between irq_disable and
irq_enable is one step, and so is a transfer over I2C. A shift by 32 or more gives 0, as it does on the processor.
-/

namespace Phabos.Tca64xx.Interrupts

/-- `IRQ_TYPE_NONE` and so on, and any other value -/
inductive IrqType where
  | none
  | edgeRising
  | edgeFalling
  | edgeBoth
  | levelHigh
  | levelLow
  | other
  deriving DecidableEq, Repr

def TCA64XX_NR_GPIO_MAX : ℕ := getNrGpios .tca6424

def TCA64XX_IRQ_TYPE_EDGE_BOTH : BitVec 32 := 0

def TCA64XX_IRQ_TYPE_EDGE_RISING : BitVec 32 := 1

def TCA64XX_IRQ_TYPE_EDGE_FALLING : BitVec 32 := 2

def TCA64XX_IRQ_TYPE_LEVEL_HIGH : BitVec 32 := 1

def TCA64XX_IRQ_TYPE_LEVEL_LOW : BitVec 32 := 2

def TCA64XX_IRQ_TYPE_EDGE : BitVec 32 := 0

def TCA64XX_IRQ_TYPE_LEVEL : BitVec 32 := 1

def getGpioTriggeringType (trigger : BitVec 32) (which : ℕ) : BitVec 32 := trigger >>> which &&& 1#32

def getGpioTriggeringLevel (level : BitVec 32) (which : ℕ) : BitVec 32 := level >>> (which <<< 1) &&& 3#32

def setGpioTrigger (bits : BitVec 32) (which : ℕ) (trigger : BitVec 32) : BitVec 32 :=
  if trigger ≠ 0 then bits ||| TCA64XX_IRQ_TYPE_LEVEL <<< which else bits &&& ~~~ (TCA64XX_IRQ_TYPE_LEVEL <<< which)

def setGpioLevel (bits : BitVec 32) (which : ℕ) (level : BitVec 32) : BitVec 32 :=
  bits &&& ~~~ (3#32 <<< (which <<< 1)) ||| level <<< (which <<< 1)

/-- What `tca64xx_set_gpio_triggering` gives to `tca64xx_set_gpio_trigger` and to `tca64xx_set_gpio_level` -/
def IrqType.setting : IrqType → Option (BitVec 32 × BitVec 32)
  | .none | .edgeBoth => some (TCA64XX_IRQ_TYPE_EDGE, TCA64XX_IRQ_TYPE_EDGE_BOTH)
  | .edgeRising => some (TCA64XX_IRQ_TYPE_EDGE, TCA64XX_IRQ_TYPE_EDGE_RISING)
  | .edgeFalling => some (TCA64XX_IRQ_TYPE_EDGE, TCA64XX_IRQ_TYPE_EDGE_FALLING)
  | .levelHigh => some (TCA64XX_IRQ_TYPE_LEVEL, TCA64XX_IRQ_TYPE_LEVEL_HIGH)
  | .levelLow => some (TCA64XX_IRQ_TYPE_LEVEL, TCA64XX_IRQ_TYPE_LEVEL_LOW)
  | .other => Option.none

/-- Whether the loop of `intstat_update` sets the bit of a pin, with the lowest bits of `diff` and of `in` -/
def raises (trigger level : BitVec 32) (pin : ℕ) (diff input : Bool) : Bool :=
  let type := getGpioTriggeringType trigger pin
  let level := getGpioTriggeringLevel level pin
  if type = TCA64XX_IRQ_TYPE_EDGE ∧ diff then
    level = TCA64XX_IRQ_TYPE_EDGE_BOTH || !input && level = TCA64XX_IRQ_TYPE_EDGE_FALLING ||
      input && level = TCA64XX_IRQ_TYPE_EDGE_RISING
  else if type = TCA64XX_IRQ_TYPE_LEVEL then
    input && level = TCA64XX_IRQ_TYPE_LEVEL_HIGH || !input && level = TCA64XX_IRQ_TYPE_LEVEL_LOW
  else false

/-- The loop of `intstat_update` -/
def intstatLoop (trigger level : BitVec 32) : ℕ → ℕ → BitVec 32 → BitVec 32 → BitVec 32 → BitVec 32
  | 0, _, _, _, intstat => intstat
  | left + 1, pin, diff, input, intstat =>
    let intstat :=
      if raises trigger level pin (diff.getLsbD 0) (input.getLsbD 0) then intstat ||| 1#32 <<< pin else intstat
    intstatLoop trigger level left (pin + 1) (diff >>> 1) (input >>> 1) intstat

/-- A call of `tca64xx_registers_update` or `tca64xx_get` in progress -/
inductive Reading where
  /-- The loop of `tca64xx_registers_update` is at `i`. -/
  | update (i : ℕ) (input : BitVec 32)
  | get (which : ℕ)
  /-- `tca64xx_get` has read the register. -/
  | got (which : ℕ) (val : BitVec 8)
  deriving DecidableEq, Repr

/-- The register that a call reads next. It is a `uint8_t`, which is never negative. -/
def Reading.reg (part : Part) : Reading → Option ℕ
  | .update i _ => if i < getNrGpios part then some (getInputReg part i) else none
  | .get which => some (getInputReg part which)
  | .got _ _ => none

/-- `i2c_get` has read a value. -/
def Reading.read (val : BitVec 8) : Reading → Reading
  | .update i input => .update (i + 8) (input ||| val.setWidth 32 <<< i)
  | .get which => .got which val
  | .got which val => .got which val

/-- What a call gives to `intstat_update`; the variable `in` of `tca64xx_get` is a `uint8_t`. -/
def Reading.input (part : Part) : Reading → Option (BitVec 32)
  | .update i input => if i < getNrGpios part then none else some input
  | .get _ => none
  | .got which val => some ((0#8 &&& ~~~ (0xFF#8 <<< (which / 8)) ||| val <<< (which / 8)).setWidth 32)

/-- A call of `tca64xx_set_gpio_triggering` that has set the trigger and not the level -/
structure Setting where
  caller : ℕ
  which : ℕ
  type : IrqType
  deriving DecidableEq, Repr

/-- Where `_tca64xx_gpio_irq_handler` is -/
inductive Handler where
  | idle
  | updating
  /-- It goes through these pins. -/
  | dispatching (pins : List ℕ)
  /-- The handler of a pin was called, and its interrupt is not cleared yet. -/
  | clearing (pin : ℕ) (pins : List ℕ)
  deriving DecidableEq, Repr

/-- `struct tca64xx_platform_data`, and the calls in progress; those of `_tca64xx_gpio_irq_handler` have no number. -/
structure Chip where
  input : BitVec 32
  intstat : BitVec 32
  mask : BitVec 32
  trigger : BitVec 32
  level : BitVec 32
  irqVector : ℕ → Option ℕ
  gpioBase : ℕ → ℕ
  queued : ℕ
  /-- Whether a thread takes what is queued on `work` -/
  thread : Bool
  handler : Handler
  readings : Option ℕ → Option Reading
  settings : List Setting
  /-- The calls of the handlers of the pins -/
  called : List (ℕ × ℕ)

/-- What `malloc` returned: `tca64xx_probe` does not set these, and it does not create the work queue. -/
structure Memory where
  trigger : BitVec 32
  level : BitVec 32
  irqVector : ℕ → Option ℕ
  gpioBase : ℕ → ℕ
  thread : Bool

/-- `tca64xx_probe` before its `tca64xx_registers_update` -/
def Chip.probed (part : Part) (memory : Memory) : Chip where
  input := 0
  intstat := 0
  mask := 1#32 <<< getNrGpios part - 1
  trigger := memory.trigger
  level := memory.level
  irqVector := memory.irqVector
  gpioBase := memory.gpioBase
  queued := 0
  thread := memory.thread
  handler := .idle
  readings := fun _ => none
  settings := []
  called := []

/-- `intstat_update` -/
def intstatUpdate (part : Part) (s : Chip) (input : BitVec 32) : Chip :=
  let diff := s.input ^^^ input
  if diff = 0 then s
  else
    let intstat := intstatLoop s.trigger s.level (getNrGpios part) 0 diff input s.intstat
    { s with input, intstat }

/-- `tca64xx_gpio_get_interrupt` -/
def Chip.getInterrupt (s : Chip) : BitVec 32 := s.intstat &&& ~~~ s.mask

/-- The pins that the loops of `_tca64xx_gpio_irq_handler` come to. The bits from `nr_gpios` on are never set. -/
def irqPins (part : Part) (irqstat : BitVec 32) : List ℕ := (List.range (getNrGpios part)).filter (irqstat.getLsbD ·)

/-- `tca64xx_gpio_clear_interrupt` -/
def Chip.clearInterrupt (s : Chip) (which : ℕ) : Chip := { s with intstat := s.intstat &&& ~~~ (1#32 <<< which) }

inductive Event where
  /-- `tca64xx_gpio_irq_handler` -/
  | interrupt
  /-- The thread of the work queue takes a work. -/
  | begin
  | update (caller : ℕ)
  | get (caller which : ℕ)
  /-- `i2c_get` reads a value, or it fails. -/
  | read (caller : Option ℕ) (val : Option (BitVec 8))
  /-- `intstat_update` -/
  | store (caller : Option ℕ)
  /-- `tca64xx_gpio_get_interrupt` of `_tca64xx_gpio_irq_handler` -/
  | snapshot
  | call
  | clear
  | finish
  | mask (which : ℕ)
  | unmask (which : ℕ)
  /-- `tca64xx_gpio_clear_interrupt` -/
  | clearInterrupt (which : ℕ)
  | attach (which isr base : ℕ)
  /-- `tca64xx_set_gpio_triggering` up to `tca64xx_set_gpio_trigger` -/
  | setTrigger (caller which : ℕ) (trigger : IrqType)
  /-- Its `tca64xx_set_gpio_level` -/
  | setLevel (caller : ℕ)
  deriving DecidableEq, Repr

/-- The steps of a call of `tca64xx_registers_update` or `tca64xx_get` -/
def Chip.start (s : Chip) (caller : Option ℕ) (reading : Reading) : Option Chip :=
  if s.readings caller = none then some { s with readings := Function.update s.readings caller (some reading) }
  else none

def Chip.read (part : Part) (s : Chip) (caller : Option ℕ) (val : Option (BitVec 8)) : Option Chip :=
  (s.readings caller).bind fun reading => (reading.reg part).map fun _ =>
    { s with readings := Function.update s.readings caller (val.map fun val => reading.read val) }

def Chip.store (part : Part) (s : Chip) (caller : Option ℕ) : Option Chip :=
  (s.readings caller).bind fun reading => (reading.input part).map fun input =>
    { intstatUpdate part s input with readings := Function.update s.readings caller none }

/-- The steps of `_tca64xx_gpio_irq_handler` after `tca64xx_registers_update` -/
def Chip.call (s : Chip) : Option Chip :=
  match s.handler with
  | .dispatching (pin :: pins) =>
    let called := s.called ++ ((s.irqVector pin).map fun isr => (isr, s.gpioBase pin + pin)).toList
    some { s with handler := .clearing pin pins, called }
  | _ => none

def Chip.clear (s : Chip) : Option Chip :=
  match s.handler with
  | .clearing pin pins => some { s.clearInterrupt pin with handler := .dispatching pins }
  | _ => none

/-- The pin is a `uint8_t` from here on. -/
def Chip.setTrigger (s : Chip) (caller which : ℕ) (type : IrqType) : Option Chip :=
  if ∃ setting ∈ s.settings, setting.caller = caller then none
  else
    match type.setting with
    | none => some s
    | some (trigger, _) =>
      let settings := (⟨caller, uint8 which, type⟩ : Setting) :: s.settings
      some { s with trigger := setGpioTrigger s.trigger (uint8 which) trigger, settings }

def Chip.setLevel (s : Chip) (caller : ℕ) : Option Chip :=
  (s.settings.find? (·.caller = caller)).bind fun setting => setting.type.setting.map fun (_, level) =>
    { s with level := setGpioLevel s.level setting.which level, settings := s.settings.erase setting }

def step (part : Part) (s : Chip) : Event → Option Chip
  | .interrupt => some { s with queued := s.queued + 1 }
  | .begin =>
    if s.thread = true ∧ 0 < s.queued ∧ s.handler = .idle then
      { s with queued := s.queued - 1, handler := .updating }.start none (.update 0 0)
    else none
  | .update caller => s.start (some caller) (.update 0 0)
  | .get caller which => s.start (some caller) (.get which)
  | .read caller val => s.read part caller val
  | .store caller => s.store part caller
  | .snapshot =>
    if s.handler = .updating ∧ s.readings none = none then
      some { s with handler := .dispatching (irqPins part s.getInterrupt) }
    else none
  | .call => s.call
  | .clear => s.clear
  | .finish => if s.handler = .dispatching [] then some { s with handler := .idle } else none
  | .mask which => some { s with mask := s.mask ||| 1#32 <<< which }
  | .unmask which => some { s with mask := s.mask &&& ~~~ (1#32 <<< which) }
  | .clearInterrupt which => some (s.clearInterrupt which)
  | .attach which isr base =>
    if which < TCA64XX_NR_GPIO_MAX then
      some { s with
        irqVector := Function.update s.irqVector which (some isr)
        gpioBase := Function.update s.gpioBase which base }
    else none
  | .setTrigger caller which trigger => s.setTrigger caller which trigger
  | .setLevel caller => s.setLevel caller

end Phabos.Tca64xx.Interrupts
