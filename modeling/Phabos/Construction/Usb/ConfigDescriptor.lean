import Phabos.Construction.Usb.DriverProbe

/-
This file embeds device_probe_interface and device_probe_configuration of drivers/usb/host/core.c. Addresses count from
`device->config`.
-/

namespace Phabos.UsbHost

def EIO : Int := 5

def ENOMEM : Int := 12

def EINVAL : Int := 22

def USB_DESCRIPTOR_CONFIGURATION : UInt8 := 2

def USB_DESCRIPTOR_INTERFACE : UInt8 := 4

/-- `sizeof(struct usb_config_descriptor)` -/
def configDescriptorSize : ℕ := 9

/-- `sizeof(struct usb_descriptor_header)` -/
def descriptorHeaderSize : ℕ := 2

/-- What a probe finds around it: the device descriptor, the drivers and what their functions return. These may depend on
the number of the interface that is probed. -/
structure Host where
  desc : UsbDeviceDescriptor
  usbdevDriver : List UsbDriver
  usbControlMsg : ℕ → UInt8 → Int
  probe : ℕ → UsbDriver → Option UsbDeviceId → Int

section Fields
variable (config : ℕ → UInt8)

/-- The bytes of the descriptors, where the total length of the configuration has two -/
def bLength (ptr : ℕ) : ℕ := (config ptr).toNat

def bDescriptorType (ptr : ℕ) : UInt8 := config (ptr + 1)

def bInterfaceNumber (ptr : ℕ) : ℕ := (config (ptr + 2)).toNat

def wTotalLength : ℕ := (config 2).toNat + 256 * (config 3).toNat

def bNumInterfaces : ℕ := (config 4).toNat

/-- The device with `device->interface` at this address -/
def Host.device (host : Host) (ptr : ℕ) : UsbDevice :=
  ⟨host.desc, ⟨config (ptr + 5), config (ptr + 6), config (ptr + 7)⟩, config 5⟩

end Fields

section Reads
variable (device : UsbDevice)

/-- The place of a field in the interface descriptor -/
def Criterion.interfaceOffset : Criterion → Option ℕ
  | .interfaceClass => some 5
  | .interfaceSubclass => some 6
  | .interfaceProtocol => some 7
  | _ => none

/-- The bytes of the interface descriptor that the checks of an entry read -/
def entryReads (id : UsbDeviceId) : List Criterion → List ℕ
  | [] => []
  | criterion :: rest =>
    (if id.matchFlags &&& criterion.flag ≠ 0 then criterion.interfaceOffset.toList else []) ++
      if criterion.passes device id then entryReads id rest else []

def tableReads : List UsbDeviceId → List ℕ
  | [] => []
  | id :: rest =>
    if id.matchFlags = 0 then []
    else entryReads device id criteria ++ if criteria.all (Criterion.passes device id) then [] else tableReads rest

/-- The addresses that `device_driver_probe` reads in the configuration, with the interface at this address -/
def driverProbeReads (ptr : ℕ) (usbdevDriver : List UsbDriver) : List ℕ :=
  (usbdevDriver.flatMap fun drv => (tableReads device drv.idTable).map (ptr + ·)) ++
    if (scanDrivers device usbdevDriver).driver.isSome then [5] else []

end Reads

/-- What `device_probe_interface` returns, the addresses that it reads, `device->interface` when it has been set, and the
calls of `probe` -/
structure InterfaceProbe where
  retval : Int
  reads : List ℕ
  interface : Option ℕ
  probed : List (UsbDriver × Option UsbDeviceId)

section Interface
variable (host : Host) (config : ℕ → UInt8) (id : ℕ)

/-- `device_driver_probe` for the interface at this address -/
def probeDriver (ptr : ℕ) (reads : List ℕ) : InterfaceProbe :=
  let device := host.device config ptr
  let outcome := deviceDriverProbe device host.usbdevDriver (host.usbControlMsg id) (host.probe id)
  ⟨outcome.retval, reads ++ driverProbeReads device ptr host.usbdevDriver, some ptr, outcome.probed⟩

/-- The loop of `device_probe_interface`, with a bound on its turns -/
def probeInterfaceFrom : ℕ → ℕ → List ℕ → Option InterfaceProbe
  | 0, _, _ => none
  | fuel + 1, hdr, reads =>
    let ptr := hdr + bLength config hdr
    let reads := reads ++ [hdr, ptr]
    if wTotalLength config < ptr + bLength config ptr then some ⟨- EINVAL, reads, none, []⟩
    else
      let isInterface := bDescriptorType config ptr = USB_DESCRIPTOR_INTERFACE
      let reads := reads ++ if isInterface then [ptr + 1, ptr + 2] else [ptr + 1]
      if isInterface ∧ bInterfaceNumber config ptr = id then some (probeDriver host config id ptr reads)
      else if ptr + bLength config ptr + descriptorHeaderSize < wTotalLength config then
        probeInterfaceFrom fuel ptr reads
      else some ⟨- ENODEV, reads, none, []⟩

/-- `device_probe_interface` -/
def deviceProbeInterface (fuel : ℕ) : Option InterfaceProbe := probeInterfaceFrom host config id fuel 0 [2, 3]

end Interface

/-- What the device answers to the two requests of a configuration: the size of each transfer, two fields of the first
descriptor and the memory that holds the second copy. `kmalloc` may fail. -/
structure Answer where
  headerSize : Int
  headerLength : UInt8
  headerTotalLength : BitVec 16
  kmalloc : Bool
  size : Int
  config : ℕ → UInt8

/-- What `device->config` points to -/
inductive ConfigBuffer where
  | earlier
  | fresh
  deriving DecidableEq, Repr

/-- What `device_probe_configuration` returns and leaves in `device->config`, whether its buffer is allocated, and the
calls of `probe` -/
structure ConfigurationProbe where
  retval : Int
  config : Option ConfigBuffer
  allocated : Bool
  probed : List (UsbDriver × Option UsbDeviceId)

section Configuration
variable (host : Host) (answer : Answer) (fuel : ℕ)

/-- The loop of `device_probe_configuration` over so many more interfaces -/
def probeInterfaces : ℕ → ℕ → Int → List (UsbDriver × Option UsbDeviceId) →
    Option (Int × List (UsbDriver × Option UsbDeviceId))
  | 0, _, retval, probed => some (retval, probed)
  | count + 1, i, _, probed =>
    (deviceProbeInterface host answer.config i fuel).bind fun probe =>
      if probe.retval = 0 then some (0, probed ++ probe.probed)
      else probeInterfaces count (i + 1) probe.retval (probed ++ probe.probed)

/-- `device_probe_configuration`, where `retval` is not initialised -/
def deviceProbeConfiguration (config : Option ConfigBuffer) (retval : Int) : Option ConfigurationProbe :=
  if answer.headerSize ≠ configDescriptorSize ∨ answer.headerSize ≠ answer.headerLength.toNat then
    some ⟨- EIO, config, false, []⟩
  else if answer.kmalloc = false then some ⟨- ENOMEM, none, false, []⟩
  else if answer.size ≠ answer.headerTotalLength.toNat then some ⟨- EIO, some .fresh, true, []⟩
  else
    (probeInterfaces host answer fuel (bNumInterfaces answer.config) 0 retval []).map fun (retval, probed) =>
      if retval ≠ 0 then ⟨retval, none, false, probed⟩ else ⟨retval, some .fresh, true, probed⟩

end Configuration

end Phabos.UsbHost
