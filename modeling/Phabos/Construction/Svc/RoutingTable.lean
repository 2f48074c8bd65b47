import Phabos.Construction.Svc.TsbSwitch
import Phabos.Construction.Svc.TsbSwitchEs2

/-
This file embeds `switch_setup_routing_table` of apps/svc/tsb_switch.c and `es2_dump_routing_table` of
apps/svc/tsb_switch_es2.c. An access outside of a mask buffer has no result.
-/

namespace Phabos.Switch

def eopnotsupp : Int := 95

/-- The values of `N_DEVICEID_VALID` and `UNIPRO_SELINDEX_NULL` -/
structure RoutingConstants where
  nDeviceidValid : BitVec 16
  uniproSelindexNull : BitVec 16

/-- The operations of a switch driver that the routing table uses. An operation may be missing. -/
structure RoutingOps (Switch : Type) where
  devIdMaskGet : Option (Byte → Mask → StateM Switch (Int × Mask))
  devIdMaskSet : Option (Byte → Mask → StateM Switch Int)
  lutSet : Option (Byte → Byte → Byte → StateM Switch Int)
  lutGet : Option (Byte → Byte → Byte → StateM Switch (Int × Byte))
  peerSet : Option (Byte → BitVec 16 → BitVec 16 → BitVec 32 → StateM Switch Int)

/-- The members of `es2_ops` -/
def es2RoutingOps {Switch : Type} (transfer : NcpTransfer Switch) : RoutingOps Switch where
  devIdMaskGet := some (es2DevIdMaskGet transfer)
  devIdMaskSet := some (es2DevIdMaskSet transfer)
  lutSet := some (es2LutSet transfer)
  lutGet := some (es2LutGet transfer)
  peerSet := some (es2PeerSet transfer)

/-- `SET_VALID_ENTRY` indexes the mask with `15 - entry / 8`. -/
def setValidEntry (idMask : Mask) (entry : Byte) : Option Mask :=
  if entry.toNat / 8 ≤ 15 then
    let index : Fin 16 := ⟨15 - entry.toNat / 8, by omega⟩
    some (idMask.set index (idMask[index] ||| 1#8 <<< (entry.toNat % 8)))
  else none

/-- `CHECK_VALID_ENTRY` -/
def checkValidEntry (validBitmask : Mask) (entry : Nat) : Option Bool :=
  if entry / 8 ≤ 15 then
    let index : Fin 16 := ⟨15 - entry / 8, by omega⟩
    some (validBitmask[index] &&& 1#8 <<< (entry % 8) ≠ 0)
  else none

section Routes
variable {Switch : Type} (ops : RoutingOps Switch) (constants : RoutingConstants)

def switchDevIdMaskGet (uniproPortid : Byte) (dst : Mask) : StateM Switch (Int × Mask) :=
  match ops.devIdMaskGet with
  | none => return (-eopnotsupp, dst)
  | some get => get uniproPortid dst

def switchDevIdMaskSet (uniproPortid : Byte) (mask : Mask) : StateM Switch Int :=
  match ops.devIdMaskSet with
  | none => return -eopnotsupp
  | some set => set uniproPortid mask

def switchLutSet (uniproPortid addr dstPortid : Byte) : StateM Switch Int :=
  match ops.lutSet with
  | none => return -eopnotsupp
  | some set => set uniproPortid addr dstPortid

def switchLutGet (uniproPortid addr dstPortid : Byte) : StateM Switch (Int × Byte) :=
  match ops.lutGet with
  | none => return (-eopnotsupp, dstPortid)
  | some get => get uniproPortid addr dstPortid

def switchDmePeerSet (portid : Byte) (attrid selectIndex : BitVec 16) (attrValue : BitVec 32) :
    StateM Switch Int :=
  match ops.peerSet with
  | none => return -eopnotsupp
  | some set => set portid attrid selectIndex attrValue

/-- The part of `switch_setup_routing_table` for the mask of one port. Both ports use one buffer. -/
def switchSetupMask (idMask : Mask) (portId deviceId : Byte) : OptionT (StateM Switch) (Int × Mask) := do
  let (rc, idMask) ← switchDevIdMaskGet ops portId idMask
  if rc ≠ 0 ∧ rc ≠ -eopnotsupp then return (rc, idMask)
  else
    let idMask ← OptionT.mk (pure (setValidEntry idMask deviceId))
    let rc ← switchDevIdMaskSet ops portId idMask
    if rc ≠ 0 ∧ rc ≠ -eopnotsupp then return (rc, idMask) else return (0, idMask)

/-- The part of `switch_setup_routing_table` for the look-up table of one port -/
def switchSetupLut (portId deviceId destPortId : Byte) : OptionT (StateM Switch) Int := do
  let rc ← switchLutSet ops portId deviceId destPortId
  if rc ≠ 0 then
    let _ ← switchDmePeerSet ops portId constants.nDeviceidValid constants.uniproSelindexNull 0
    return rc
  else return 0

/-- `idMask` is what the buffer on the stack holds at first. -/
def switchSetupRoutingTable (idMask : Mask) (deviceId0 portId0 deviceId1 portId1 : Byte) :
    OptionT (StateM Switch) Int := do
  let (rc, idMask) ← switchSetupMask ops idMask portId0 deviceId1
  if rc ≠ 0 then return rc
  else
    let (rc, _) ← switchSetupMask ops idMask portId1 deviceId0
    if rc ≠ 0 then return rc
    else
      let rc ← switchSetupLut ops constants portId0 deviceId1 portId1
      if rc ≠ 0 then return rc else switchSetupLut ops constants portId1 deviceId0 portId0

/-- A line of the dump: port, device id and destination port -/
abbrev Line := Nat × Nat × Byte

/-- The loop over the device ids of a port. `p` is the destination that was read last. -/
def dumpDevices (uniproPortid : Nat) (validBitmask : Mask) : List Nat → Byte →
    OptionT (StateM Switch) (Byte × List Line)
  | [], p => return (p, [])
  | devid :: rest, p => do
    let valid ← OptionT.mk (pure (checkValidEntry validBitmask devid))
    if valid then
      let (_, p) ← switchLutGet ops (.ofNat 8 uniproPortid) (.ofNat 8 devid) p
      let (last, lines) ← dumpDevices uniproPortid validBitmask rest p
      return (last, (uniproPortid, devid, p) :: lines)
    else dumpDevices uniproPortid validBitmask rest p

/-- The loop over the ports -/
def dumpPorts (validBitmask : Mask) : List Nat → Byte → OptionT (StateM Switch) (Int × List Line)
  | [], _ => return (0, [])
  | uniproPortid :: rest, p => do
    let (rc, validBitmask) ← switchDevIdMaskGet ops (.ofNat 8 uniproPortid) validBitmask
    if rc ≠ 0 then return (-1, [])
    else
      let devids := (List.range 8).flatMap fun i => (List.range 16).map fun j => i * 16 + j
      let (p, lines) ← dumpDevices ops uniproPortid validBitmask devids p
      let (rc, more) ← dumpPorts validBitmask rest p
      return (rc, lines ++ more)

def es2DumpRoutingTable (validBitmask : Mask) : OptionT (StateM Switch) (Int × List Line) :=
  dumpPorts ops validBitmask (List.range (switchPortId.toNat + 1)) 0

end Routes

/-- The arguments of a call of `switch_setup_routing_table` -/
structure Route where
  deviceId0 : Byte
  portId0 : Byte
  deviceId1 : Byte
  portId1 : Byte
  deriving DecidableEq, Repr

/-- A call on a switch with registers: its result, if it stays in its buffer, and the registers after it -/
def Route.setup (constants : RoutingConstants) (idMask : Mask) (route : Route) (registers : Registers) : Option Int × Registers :=
  (switchSetupRoutingTable (es2RoutingOps registerTransfer) constants idMask
    route.deviceId0 route.portId0 route.deviceId1 route.portId1).run registers

/-- Calls in a row, as long as each one returns 0 -/
def setupAll (constants : RoutingConstants) (idMask : Mask) : List Route → Registers → Option Registers
  | [], registers => some registers
  | route :: rest, registers =>
    if (route.setup constants idMask registers).1 = some 0 then
      setupAll constants idMask rest (route.setup constants idMask registers).2
    else none

/-- The dump on a switch with registers -/
def Registers.dump (registers : Registers) (validBitmask : Mask) : Option (Int × List Line) × Registers :=
  (es2DumpRoutingTable (es2RoutingOps registerTransfer) validBitmask).run registers

end Phabos.Switch
