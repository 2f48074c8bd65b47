import Mathlib.Data.List.Basic

/-
This file embeds usb_register_driver and device_driver_probe of drivers/usb/host/core.c.
-/

namespace Phabos.UsbHost

def ENODEV : Int := 19

/-- The fields of a device that a driver can ask for -/
inductive Criterion where
  | vendor
  | product
  | deviceClass
  | deviceSubclass
  | deviceProtocol
  | interfaceClass
  | interfaceSubclass
  | interfaceProtocol
  deriving DecidableEq, Repr

/-- `USB_DRIVER_MATCH_VENDOR` to `USB_DRIVER_MATCH_INTERFACE_PROTOCOL` -/
def Criterion.flag : Criterion → BitVec 32
  | .vendor => 1#32 <<< 0
  | .product => 1#32 <<< 1
  | .deviceClass => 1#32 <<< 2
  | .deviceSubclass => 1#32 <<< 3
  | .deviceProtocol => 1#32 <<< 4
  | .interfaceClass => 1#32 <<< 5
  | .interfaceSubclass => 1#32 <<< 6
  | .interfaceProtocol => 1#32 <<< 7

/-- `struct usb_device_id` -/
structure UsbDeviceId where
  vid : BitVec 16
  pid : BitVec 16
  deviceClass : UInt8
  subclass : UInt8
  protocol : UInt8
  iclass : UInt8
  isubclass : UInt8
  iprotocol : UInt8
  matchFlags : BitVec 32
  deriving DecidableEq

/-- `struct usb_driver`, which is known by its address. Its table ends in front of the first entry without a flag. -/
structure UsbDriver where
  address : ℕ
  idTable : List UsbDeviceId
  deriving DecidableEq

/-- `struct usb_device_descriptor` -/
structure UsbDeviceDescriptor where
  idVendor : BitVec 16
  idProduct : BitVec 16
  bDeviceClass : UInt8
  bDeviceSubClass : UInt8
  bDeviceProtocol : UInt8
  deriving DecidableEq

/-- `struct usb_interface_descriptor` -/
structure UsbInterfaceDescriptor where
  bInterfaceClass : UInt8
  bInterfaceSubClass : UInt8
  bInterfaceProtocol : UInt8
  deriving DecidableEq

/-- `struct usb_device`, with the value of its configuration -/
structure UsbDevice where
  desc : UsbDeviceDescriptor
  interface : UsbInterfaceDescriptor
  bConfigurationValue : UInt8
  deriving DecidableEq

def Criterion.ofDevice (device : UsbDevice) : Criterion → ℕ
  | .vendor => device.desc.idVendor.toNat
  | .product => device.desc.idProduct.toNat
  | .deviceClass => device.desc.bDeviceClass.toNat
  | .deviceSubclass => device.desc.bDeviceSubClass.toNat
  | .deviceProtocol => device.desc.bDeviceProtocol.toNat
  | .interfaceClass => device.interface.bInterfaceClass.toNat
  | .interfaceSubclass => device.interface.bInterfaceSubClass.toNat
  | .interfaceProtocol => device.interface.bInterfaceProtocol.toNat

def Criterion.ofId (id : UsbDeviceId) : Criterion → ℕ
  | .vendor => id.vid.toNat
  | .product => id.pid.toNat
  | .deviceClass => id.deviceClass.toNat
  | .deviceSubclass => id.subclass.toNat
  | .deviceProtocol => id.protocol.toNat
  | .interfaceClass => id.iclass.toNat
  | .interfaceSubclass => id.isubclass.toNat
  | .interfaceProtocol => id.iprotocol.toNat

/-- The checks in the order of the source -/
def criteria : List Criterion :=
  [.vendor, .product, .deviceClass, .deviceSubclass, .deviceProtocol, .interfaceClass, .interfaceSubclass,
    .interfaceProtocol]

section Probe
variable (device : UsbDevice)

/-- One check of an entry: the next entry follows when the flag is set and the values differ. -/
def Criterion.passes (id : UsbDeviceId) (criterion : Criterion) : Bool :=
  if id.matchFlags &&& criterion.flag ≠ 0 then criterion.ofDevice device = criterion.ofId id else true

/-- The variables `driver` and `id`, which are not set at first. `id` is not initialised. -/
structure Scan where
  driver : Option UsbDriver
  id : Option UsbDeviceId
  deriving DecidableEq

/-- The loop over the entries of a table -/
def scanTable (drv : UsbDriver) : List UsbDeviceId → Scan → Scan
  | [], scan => scan
  | id :: rest, scan =>
    if id.matchFlags = 0 then scan
    else if criteria.all (Criterion.passes device id) then ⟨some drv, some id⟩
    else scanTable drv rest { scan with id := some id }

/-- The loop over the drivers -/
def scanDrivers (usbdevDriver : List UsbDriver) : Scan :=
  usbdevDriver.foldl (fun scan drv => scanTable device drv drv.idTable scan) ⟨none, none⟩

/-- What `device_driver_probe` returns, the configurations that it requests, and the calls of `probe` -/
structure Outcome where
  retval : Int
  transfers : List UInt8
  probed : List (UsbDriver × Option UsbDeviceId)
  deriving DecidableEq

/-- `device_driver_probe`, with what `usb_control_msg` and `probe` return -/
def deviceDriverProbe (usbdevDriver : List UsbDriver) (usbControlMsg : UInt8 → Int)
    (probe : UsbDriver → Option UsbDeviceId → Int) : Outcome :=
  let scan := scanDrivers device usbdevDriver
  match scan.driver with
  | none => ⟨- ENODEV, [], []⟩
  | some driver =>
    let size := usbControlMsg device.bConfigurationValue
    if size < 0 then ⟨size, [device.bConfigurationValue], []⟩
    else ⟨probe driver scan.id, [device.bConfigurationValue], [(driver, scan.id)]⟩

end Probe

/-- `usb_register_driver`, where `list_add` puts the driver at the end -/
def usbRegisterDriver (usbdevDriver : List UsbDriver) (driver : UsbDriver) : List UsbDriver := usbdevDriver ++ [driver]

end Phabos.UsbHost
