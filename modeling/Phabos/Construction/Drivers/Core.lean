import Phabos.Construction.Lib.Hashtable
import Phabos.Library.Cursor

/-
This file embeds the drivers and the registered devices of drivers/core.c, and the probing of the devices.
-/

namespace Phabos.Drivers
open Library

def EAGAIN : Int := 11

def EINVAL : Int := 22

/-- A call of `device_probe` with its result, in a pass over the list of the devices -/
structure Attempt where
  pass : ℕ
  device : ℕ
  retval : Int
  deriving DecidableEq, Repr

/-- What `probe` returns can depend on all that was probed before. It is NULL for `none`. -/
structure Driver where
  name : List UInt8
  probe : Option (List Attempt → ℕ → Int)

/-- The lists of drivers/core.c, with the addresses of the devices and the names of their drivers. `pass` is the number
of passes that `device_driver_probe_all` has begun, and `attempts` is what it has probed. -/
structure Core where
  drivers : List Driver
  driver : ℕ → Option (List UInt8)
  devices : List ℕ
  probedDevices : List ℕ
  pass : ℕ
  attempts : List Attempt

/-- The lists when `device_driver_probe_all` is called -/
def Core.pending (drivers : List Driver) (driver : ℕ → Option (List UInt8)) (devices probedDevices : List ℕ) : Core :=
  ⟨drivers, driver, devices, probedDevices, 0, []⟩

def driverLookup (drivers : List Driver) (name : Option (List UInt8)) : Option Driver :=
  name.bind fun name => drivers.find? fun driver => driver.name == name

def deviceProbe (drivers : List Driver) (driver : ℕ → Option (List UInt8)) (attempts : List Attempt) (dev : ℕ) : Int :=
  match (driverLookup drivers (driver dev)).bind Driver.probe with
  | none => - EINVAL
  | some probe => probe attempts dev

def Core.probe (c : Core) (device : ℕ) : Int := deviceProbe c.drivers c.driver c.attempts device

/-- A turn of the loop over the list: a device whose probe is deferred goes to the end of the list. -/
def Core.turn (c : Core) (device : ℕ) : Core :=
  let retval := c.probe device
  let devices := c.devices.erase device
  { c with
    devices := if retval = - EAGAIN then devices ++ [device] else devices
    probedDevices := if retval = 0 then c.probedDevices ++ [device] else c.probedDevices
    attempts := c.attempts ++ [⟨c.pass, device, retval⟩] }

/-- The loop `list_foreach_safe` over the devices with its two cursors, cut off after `fuel` turns. -/
def probeDevices : ℕ → Bool → Core → Option ℕ → Option ℕ → Option (Bool × Core)
  | 0, _, _, _, _ => none
  | _ + 1, retry, c, none, _ => some (retry, c)
  | fuel + 1, retry, c, some device, niter =>
    let next := c.turn device
    probeDevices fuel (retry || decide (c.probe device = 0)) next niter (Cursor.next next.devices niter)

/-- A pass begins. -/
def Core.nextPass (c : Core) : Core := { c with pass := c.pass + 1 }

/-- The loop over the passes -/
def probePasses (fuel : ℕ) : ℕ → Bool → Core → Option Core
  | 0, _, _ => none
  | passes + 1, retry, c =>
    if c.devices ≠ [] ∧ retry = true then
      let iter := c.devices.head?
      (probeDevices fuel false c.nextPass iter (Cursor.next c.devices iter)).bind fun (retry, c) =>
        probePasses fuel passes retry c
    else some c

/-- The function is cut off after `fuel` passes of `fuel` turns each. -/
def deviceDriverProbeAll (fuel : ℕ) (c : Core) : Option Core := probePasses fuel fuel true c

end Phabos.Drivers

/-
This part embeds the device numbers of drivers/core.c and include/phabos/driver.h. Drivers and devices are given by
their addresses, where 0 is NULL, and each allocation has an address of its own.
-/

namespace Phabos.DeviceNumbers

def ENOMEM : Int := 12

/-- `sizeof(dev_t)`: the number is a short integer with one byte for each of its parts. -/
def sizeofDevT : ℕ := 2

abbrev DevT := BitVec 16

def makedev (major minor : ℕ) : DevT := BitVec.ofNat 16 (major % 2 ^ 8 + 2 ^ 8 * (minor % 2 ^ 8))

def major (dev : DevT) : ℕ := dev.toNat % 2 ^ 8

def minor (dev : DevT) : ℕ := dev.toNat / 2 ^ 8

/-- The bound of the loops over the parts of a number -/
def bound : ℕ := sizeofDevT / 2 * 2 ^ 8

/-- `struct devnum` -/
structure Devnum where
  driver : ℕ
  deviceTable : Hashtable (BitVec 32) ℕ

/-- `driver_table` and its lock, which is locked when the depth is not 0. A call that faults or does not end stops the
core. `given` is what the calls of `devnum_alloc` have returned, with the driver and the device of each number. -/
structure Core where
  driverTable : Hashtable (BitVec 32) ℕ
  devnum : ℕ → Devnum
  next : ℕ
  lockDepth : ℕ
  stopped : Bool
  given : List (DevT × ℕ × ℕ)

/-- The table after `driver_init` -/
def driverInit : Core where
  driverTable := .create uintKeys
  devnum _ := ⟨0, .create uintKeys⟩
  next := 1
  lockDepth := 0
  stopped := false
  given := []

/-- The allocations of a call of `devnum_alloc` that succeed: the entry of a driver, its table, and the growth of the
two tables -/
structure Memory where
  entry : Bool
  table : Bool
  growDrivers : Bool
  growDevices : Bool
  deriving DecidableEq, Repr

/-- `hashtable_add`, which follows a null pointer when the table has to grow without memory -/
def hashtableAdd (memory : Bool) (table : Hashtable (BitVec 32) ℕ) (key : BitVec 32) (value : ℕ) :
    Option (Hashtable (BitVec 32) ℕ) :=
  (table.findSlot key).bind fun node =>
    let stored := table.store node key value
    if stored.size / 2 ≤ stored.count ∧ memory = false then none else table.add key value

/-- The loop over the minor numbers from `j` on, for the devices of a driver -/
def allocMinor (memory : Memory) (table : Hashtable (BitVec 32) ℕ) (device : ℕ) :
    ℕ → ℕ → Option (Option (Hashtable (BitVec 32) ℕ × ℕ))
  | 0, _ => some none
  | left + 1, j =>
    (table.has (BitVec.ofNat 32 j)).bind fun has =>
      if has then allocMinor memory table device left (j + 1)
      else (hashtableAdd memory.growDevices table (BitVec.ofNat 32 j) device).map fun table => some (table, j)

/-- The end of `devnum_alloc`, for the entry of a driver. The result is `retval` and the number. -/
def allocIn (c : Core) (device : ℕ) (memory : Memory) (i dev : ℕ) : Option (Core × Int × Option DevT) :=
  (allocMinor memory (c.devnum dev).deviceTable device bound 0).map fun
    | none => (c, - ENOMEM, none)
    | some (table, j) =>
      ({ c with devnum := Function.update c.devnum dev ⟨(c.devnum dev).driver, table⟩ }, 0, some (makedev i j))

/-- The loop over the major numbers from `i` on. A table that could not be created is a null pointer that the loop over
the minor numbers follows. -/
def allocMajor (c : Core) (driver device : ℕ) (memory : Memory) : ℕ → ℕ → Option (Core × Int × Option DevT)
  | 0, _ => some (c, - ENOMEM, none)
  | left + 1, i =>
    (c.driverTable.get (BitVec.ofNat 32 i)).bind fun dev =>
      if dev ≠ 0 ∧ (c.devnum dev).driver ≠ driver then allocMajor c driver device memory left (i + 1)
      else if dev ≠ 0 then allocIn c device memory i dev
      else if !memory.entry then some (c, - ENOMEM, none)
      else
        (hashtableAdd memory.growDrivers c.driverTable (BitVec.ofNat 32 i) c.next).bind fun driverTable =>
          if !memory.table then none
          else
            let created := { c with
              driverTable := driverTable
              devnum := Function.update c.devnum c.next ⟨driver, .create uintKeys⟩
              next := c.next + 1 }
            allocIn created device memory i c.next

def Core.lock (c : Core) : Core := { c with lockDepth := c.lockDepth + 1 }

def Core.unlock (c : Core) : Core := { c with lockDepth := c.lockDepth - 1 }

/-- The result of a call that stops is not given to anyone. -/
def devnumAlloc (c : Core) (driver device : ℕ) (memory : Memory) : Core × Int × Option DevT :=
  match allocMajor c.lock driver device memory bound 0 with
  | none => ({ c.lock with stopped := true }, - ENOMEM, none)
  | some (c, retval, number) => (c.unlock, retval, number)

/-- A major number without a driver is left before the lock is. -/
def devnumGetDevice (c : Core) (dev : DevT) : Core × ℕ :=
  match c.driverTable.get (BitVec.ofNat 32 (major dev)) with
  | none => ({ c.lock with stopped := true }, 0)
  | some devnum =>
    if devnum = 0 then (c.lock, 0)
    else
      match (c.devnum devnum).deviceTable.get (BitVec.ofNat 32 (minor dev)) with
      | none => ({ c.lock with stopped := true }, 0)
      | some device => (c.lock.unlock, device)

inductive Action where
  | alloc (driver device : ℕ) (memory : Memory)
  | getDevice (dev : DevT)
  deriving DecidableEq, Repr

def step (c : Core) (action : Action) : Option Core :=
  if c.stopped then none
  else match action with
    | .alloc driver device memory =>
      let (next, _, number) := devnumAlloc c driver device memory
      some { next with given := next.given ++ (number.map fun number => (number, driver, device)).toList }
    | .getDevice dev => some (devnumGetDevice c dev).1

end Phabos.DeviceNumbers
