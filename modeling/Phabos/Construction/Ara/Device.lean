import Phabos.Library.ByteMemory

/-
This file embeds the operations on one entry of a ring in include/phabos/ara/ring_buf.h. The addresses are numbers below
2^32 with a memory of its own for each entry.
-/

namespace Phabos.Ara
open Library

/-- `enum ring_buf_owner` -/
inductive RingBufOwner where
  | invalid
  | producer
  | consumer
  deriving DecidableEq, Repr

/-- `struct ring_buf`, with the bytes of its buffer -/
structure RingBuf where
  owner : RingBufOwner
  data : ℕ
  tailroom : ℕ
  head : ℕ
  tail : ℕ
  bytes : ByteMemory.Memory

namespace RingBuf

def isProducers (rb : RingBuf) : Bool := rb.owner = .producer

def isConsumers (rb : RingBuf) : Bool := rb.owner = .consumer

def pass (rb : RingBuf) : RingBuf := { rb with owner := if rb.isProducers then .consumer else .producer }

def reset (rb : RingBuf) : RingBuf := { rb with head := rb.data, tail := rb.data }

/-- The difference of two pointers as an `unsigned int` -/
def difference (high low : ℕ) : ℕ := (high + 2 ^ 32 - low) % 2 ^ 32

def len (rb : RingBuf) : ℕ := difference rb.tail rb.head

def space (rb : RingBuf) : ℕ := difference rb.tailroom rb.tail

def isEmpty (rb : RingBuf) : Bool := rb.len = 0

def isFull (rb : RingBuf) : Bool := rb.space = 0

def put (rb : RingBuf) (len : ℕ) : RingBuf := { rb with tail := rb.tail + len }

def pull (rb : RingBuf) (len : ℕ) : RingBuf := { rb with head := rb.head + len }

end RingBuf

/-
This part embeds drivers/ara/device.c and the iteration of drivers/ara/device_table.c. The structures device, ara_device
and device_ara of these files are taken as one. While a call has interrupts disabled, nothing else goes on.
-/

def EINVAL : Int := 22

/-- `DEVICE_STATE_REMOVED` and so on; `DEVICE_STATE_OPEN` is `opened`. -/
inductive DeviceState where
  | removed
  | probing
  | probed
  | opening
  | opened
  | closing
  | removing
  deriving DecidableEq, Repr

/-- Which callbacks a driver has -/
structure DeviceDriverOps where
  probe : Bool
  remove : Bool
  opens : Bool
  closes : Bool
  deriving DecidableEq, Repr

structure DeviceDriver where
  type : Option String
  name : Option String
  ops : Option DeviceDriverOps
  deriving DecidableEq, Repr

/-- The fields of `struct device_ara` that do not change -/
structure DeviceInfo where
  type : String
  name : String
  id : ℕ
  deriving DecidableEq, Repr

/-- The fields of `struct device_ara` that change; a driver is known by its address. -/
structure DeviceAra where
  state : DeviceState
  driver : Option ℕ
  deriving DecidableEq, Repr

/-- A device by its table and its place there -/
abbrev Device := ℕ × ℕ

/-- The drivers, and `device_is_open`, which no file defines -/
structure Board where
  drivers : ℕ → DeviceDriver
  deviceIsOpen : DeviceState → Bool

/-- A call of one of the four functions -/
inductive Function where
  | deviceOpen (type : Option String) (id : ℕ)
  | deviceClose (dev : Option Device)
  | deviceRegisterDriver (driver : Option ℕ)
  | deviceUnregisterDriver (driver : Option ℕ)
  deriving DecidableEq, Repr

/-- What a function returns -/
inductive Result where
  | dev (dev : Option Device)
  | ret (ret : Int)
  | void
  deriving DecidableEq, Repr

inductive Place where
  /-- Interrupts are disabled, and the iterator is here. -/
  | loop (iter : Option Device)
  /-- In a callback of this device, which was like that before the call set its state -/
  | callback (dev : Device) (before : DeviceAra)
  deriving DecidableEq, Repr

/-- A call in progress, and the interrupt nesting depth that it was called with -/
structure Call where
  function : Function
  depth : ℕ
  place : Place
  deriving DecidableEq, Repr

/-- A function that returned, with the depth before and after -/
structure Returned where
  function : Function
  result : Result
  depth : ℕ
  after : ℕ
  deriving DecidableEq, Repr

/-- The callbacks of a driver -/
inductive Callback where
  | probe
  | remove
  | opens
  | closes
  deriving DecidableEq, Repr

def DeviceDriverOps.has (ops : DeviceDriverOps) : Callback → Bool
  | .probe => ops.probe
  | .remove => ops.remove
  | .opens => ops.opens
  | .closes => ops.closes

/-- A callback that completed successfully, or that the driver does not have (then it was not called) -/
structure Completed where
  dev : Device
  callback : Callback
  called : Bool
  deriving DecidableEq, Repr

/-- `owner` is the call that has interrupts disabled. -/
structure Kernel where
  tables : List (List DeviceInfo)
  devices : Device → DeviceAra
  irqGlobalState : ℕ
  owner : Option ℕ
  calls : ℕ → Option Call
  completed : List Completed
  /-- The devices of failed callbacks, before the call and after it -/
  failed : List (DeviceAra × DeviceAra)
  returns : List Returned

def Kernel.boot : Kernel := ⟨[], fun _ => ⟨.removed, none⟩, 0, none, fun _ => none, [], [], []⟩

/-- `device_table_iter_next`; the iterator is at the device that it returned. -/
def deviceTableIterNext (tables : List (List DeviceInfo)) (iter : Option Device) : Option Device :=
  let at_item := match iter with
    | none => (0, 0)
    | some (table, item) => (table, item + 1)
  tables[at_item.1]?.bind fun devices =>
    if devices.length ≤ at_item.2 then
      if at_item.1 + 1 = tables.length then none else some (at_item.1 + 1, 0)
    else some at_item

def Kernel.info (s : Kernel) (dev : Device) : Option DeviceInfo := s.tables[dev.1]?.bind fun devices => devices[dev.2]?

def Kernel.irqDisable (s : Kernel) (id : ℕ) : Kernel :=
  { s with irqGlobalState := s.irqGlobalState + 1, owner := some id }

def Kernel.irqEnable (s : Kernel) : Kernel := { s with irqGlobalState := s.irqGlobalState - 1, owner := none }

def Kernel.setDevice (s : Kernel) (dev : Device) (device : DeviceAra) : Kernel :=
  { s with devices := Function.update s.devices dev device }

def Kernel.complete (s : Kernel) (dev : Device) (callback : Callback) (called : Bool) : Kernel :=
  { s with completed := s.completed ++ [(⟨dev, callback, called⟩ : Completed)] }

/-- A call goes on at this place. -/
def Kernel.atPlace (s : Kernel) (id : ℕ) (call : Call) (place : Place) : Kernel :=
  { s with calls := Function.update s.calls id (some { call with place }) }

/-- `irq_enable` and `return` -/
def Kernel.leave (s : Kernel) (id : ℕ) (call : Call) (result : Result) : Kernel :=
  let s := s.irqEnable
  { s with
    calls := Function.update s.calls id none
    returns := s.returns ++ [(⟨call.function, result, call.depth, s.irqGlobalState⟩ : Returned)] }

/-- `irq_enable` and the callback, if the driver has it -/
def Kernel.invoke (s : Kernel) (id : ℕ) (call : Call) (dev : Device) (callback : Callback) (ops : DeviceDriverOps)
    (before : DeviceAra) (goOn : Kernel → Kernel) : Kernel :=
  if ops.has callback then s.irqEnable.atPlace id call (.callback dev before) else goOn (s.complete dev callback false)

/-- The checks of the arguments -/
def Function.refused (b : Board) : Function → Option Result
  | .deviceOpen none _ => some (.dev none)
  | .deviceClose none | .deviceUnregisterDriver none => some .void
  | .deviceRegisterDriver driver =>
    match driver.map b.drivers with
    | some ⟨some _, some _, some _⟩ => none
    | _ => some (.ret (- EINVAL))
  | .deviceOpen (some _) _ | .deviceClose (some _) | .deviceUnregisterDriver (some _) => none

/-- A turn of the loop of `device_open` -/
def deviceOpen (b : Board) (s : Kernel) (id : ℕ) (call : Call) (type : Option String) (device_id : ℕ)
    (iter : Option Device) : Option Kernel :=
  match deviceTableIterNext s.tables iter with
  | none => some (s.leave id call (.dev none))
  | some dev => (s.info dev).bind fun info =>
    if some info.type = type ∧ info.id = device_id then
      if (s.devices dev).state ≠ .probed then some (s.leave id call (.dev none))
      else
        let before := s.devices dev
        before.driver.bind fun driver => (b.drivers driver).ops.map fun ops =>
          (s.setDevice dev { before with state := .opening }).invoke id call dev .opens ops before fun s =>
            (s.setDevice dev { before with state := .opened }).leave id call (.dev (some dev))
    else some (s.atPlace id call (.loop (some dev)))

/-- `device_close` after its first check -/
def deviceClose (b : Board) (s : Kernel) (id : ℕ) (call : Call) (dev : Device) : Option Kernel :=
  if b.deviceIsOpen (s.devices dev).state = false then some (s.leave id call .void)
  else
    let before := s.devices dev
    before.driver.bind fun driver => (b.drivers driver).ops.map fun ops =>
      (s.setDevice dev { before with state := .closing }).invoke id call dev .closes ops before fun s =>
        (s.setDevice dev { before with state := .probed }).leave id call .void

/-- A turn of the loop of `device_register_driver` -/
def deviceRegisterDriver (b : Board) (s : Kernel) (id : ℕ) (call : Call) (driver : ℕ) (iter : Option Device) :
    Option Kernel :=
  match deviceTableIterNext s.tables iter with
  | none => some (s.leave id call (.ret 0))
  | some dev => (s.info dev).bind fun info =>
    if some info.type = (b.drivers driver).type ∧ some info.name = (b.drivers driver).name then
      if (s.devices dev).state ≠ .removed then some (s.atPlace id call (.loop (some dev)))
      else (b.drivers driver).ops.map fun ops =>
        (s.setDevice dev ⟨.probing, some driver⟩).invoke id call dev .probe ops (s.devices dev) fun s =>
          (s.setDevice dev ⟨.probed, some driver⟩).atPlace id call (.loop (some dev))
    else some (s.atPlace id call (.loop (some dev)))

/-- A turn of the loop of `device_unregister_driver` -/
def deviceUnregisterDriver (b : Board) (s : Kernel) (id : ℕ) (call : Call) (driver : ℕ) (iter : Option Device) :
    Option Kernel :=
  match deviceTableIterNext s.tables iter with
  | none => some (s.leave id call .void)
  | some dev => (s.info dev).bind fun _ =>
    if (s.devices dev).driver = some driver then
      if (s.devices dev).state ≠ .probed then some (s.atPlace id call (.loop (some dev)))
      else (b.drivers driver).ops.map fun ops =>
        let before := s.devices dev
        (s.setDevice dev { before with state := .removing }).invoke id call dev .remove ops before fun s =>
          (s.setDevice dev ⟨.removed, none⟩).atPlace id call (.loop (some dev))
    else some (s.atPlace id call (.loop (some dev)))

/-- The call that has interrupts disabled goes on. -/
def Kernel.turn (b : Board) (s : Kernel) (id : ℕ) (call : Call) (iter : Option Device) : Option Kernel :=
  match call.function with
  | .deviceOpen type device_id => deviceOpen b s id call type device_id iter
  | .deviceClose dev => dev.bind fun dev => deviceClose b s id call dev
  | .deviceRegisterDriver driver => driver.bind fun driver => deviceRegisterDriver b s id call driver iter
  | .deviceUnregisterDriver driver => driver.bind fun driver => deviceUnregisterDriver b s id call driver iter

/-- What the functions do after a callback has returned and `irq_disable` -/
def Kernel.callbackReturns (s : Kernel) (id : ℕ) (call : Call) (dev : Device) (before : DeviceAra) (ret : Int) : Kernel :=
  let device := s.devices dev
  let fail (after : DeviceAra) : Kernel := { s.setDevice dev after with failed := s.failed ++ [(before, after)] }
  match call.function with
  | .deviceOpen _ _ =>
    if ret ≠ 0 then (fail { device with state := .probed }).leave id call (.dev none)
    else
      ((s.complete dev .opens true).setDevice dev { device with state := .opened }).leave id call (.dev (some dev))
  | .deviceClose _ => ((s.complete dev .closes true).setDevice dev { device with state := .probed }).leave id call .void
  | .deviceRegisterDriver _ =>
    if ret ≠ 0 then (fail ⟨.removed, none⟩).atPlace id call (.loop (some dev))
    else ((s.complete dev .probe true).setDevice dev { device with state := .probed }).atPlace id call (.loop (some dev))
  | .deviceUnregisterDriver _ =>
    ((s.complete dev .remove true).setDevice dev ⟨.removed, none⟩).atPlace id call (.loop (some dev))

inductive Event where
  | call (id : ℕ) (function : Function)
  | turn
  /-- A callback returns; one without a result counts as 0. -/
  | callbackReturns (id : ℕ) (ret : Int)
  /-- `device_table_register` -/
  | deviceTableRegister (table : List DeviceInfo)
  /-- Other code changes the interrupt nesting depth. -/
  | nest (depth : ℕ)
  deriving DecidableEq, Repr

def step (b : Board) (s : Kernel) : Event → Option Kernel
  | .call id function =>
    if s.owner = none ∧ s.calls id = none then
      let depth := s.irqGlobalState
      match function.refused b with
      | some result => some { s with returns := s.returns ++ [(⟨function, result, depth, depth⟩ : Returned)] }
      | none => some ((s.irqDisable id).atPlace id ⟨function, depth, .loop none⟩ (.loop none))
    else none
  | .turn => s.owner.bind fun id => (s.calls id).bind fun call =>
    match call.place with
    | .loop iter => s.turn b id call iter
    | .callback _ _ => none
  | .callbackReturns id ret => (s.calls id).bind fun call =>
    match call.place with
    | .loop _ => none
    | .callback dev before =>
      if s.owner = none ∧ s.irqGlobalState = call.depth then
        some ((s.irqDisable id).callbackReturns id call dev before ret)
      else none
  | .deviceTableRegister table =>
    if s.owner = none ∧ table ≠ [] then some { s with tables := s.tables ++ [table] } else none
  | .nest depth => if s.owner = none then some { s with irqGlobalState := depth } else none

end Phabos.Ara
