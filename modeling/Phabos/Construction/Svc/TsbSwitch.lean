import Mathlib.Logic.Function.Basic

/-
This file embeds the connection set-up of apps/svc/tsb_switch.c and the attribute store that it writes to.
-/

namespace Phabos.Switch

/-- `SWITCH_PORT_ID` -/
def switchPortId : BitVec 8 := 14

def defaultTokenValue : BitVec 32 := 32

def defaultProtocolId : BitVec 32 := 0

def defaultMaxSegmentConfig : BitVec 32 := 0x118

/-- The attributes of a CPort -/
inductive Attribute
  | peerDeviceId
  | peerCportId
  | connectionState
  | trafficClass
  | protocolId
  | cportFlags
  | txTokenValue
  | rxTokenValue
  | localBufferSpace
  | peerBufferSpace
  | creditsToSend
  | cportMode
  | tsbMaxSegmentConfig
  deriving DecidableEq, Repr

/-- The values of `CPORT_FLAGS_E2EFC`, `CPORT_FLAGS_CSD_N` and `CPORT_MODE_APPLICATION` -/
structure CportConstants where
  flagsE2efc : BitVec 8
  flagsCsdN : BitVec 8
  modeApplication : BitVec 32

structure UniproConnection where
  portId0 : BitVec 8
  deviceId0 : BitVec 8
  cportId0 : BitVec 16
  portId1 : BitVec 8
  deviceId1 : BitVec 8
  cportId1 : BitVec 16
  tc : BitVec 8
  flags : BitVec 8
  deriving DecidableEq, Repr

/-- The accesses of a switch driver. An access that fails throws its return code. -/
structure TsbSwitchOps (Switch : Type) where
  set : BitVec 8 → Attribute → BitVec 16 → BitVec 32 → ExceptT Int (StateM Switch) Unit
  get : BitVec 8 → Attribute → BitVec 16 → ExceptT Int (StateM Switch) (BitVec 32)
  peerSet : BitVec 8 → Attribute → BitVec 16 → BitVec 32 → ExceptT Int (StateM Switch) Unit
  peerGet : BitVec 8 → Attribute → BitVec 16 → ExceptT Int (StateM Switch) (BitVec 32)

section Connect
variable {Switch : Type} (ops : TsbSwitchOps Switch)

def switchSetPortL4attr (portid : BitVec 8) (attrid : Attribute) (selector : BitVec 16) (val : BitVec 32) :
    ExceptT Int (StateM Switch) Unit :=
  if portid = switchPortId then ops.set portid attrid selector val else ops.peerSet portid attrid selector val

def switchGetPortL4attr (portid : BitVec 8) (attrid : Attribute) (selector : BitVec 16) :
    ExceptT Int (StateM Switch) (BitVec 32) :=
  if portid = switchPortId then ops.get portid attrid selector else ops.peerGet portid attrid selector

def switchSetPairAttr (c : UniproConnection) (attrid : Attribute) (val0 val1 : BitVec 32) :
    ExceptT Int (StateM Switch) Unit := do
  switchSetPortL4attr ops c.portId0 attrid c.cportId0 val0
  switchSetPortL4attr ops c.portId1 attrid c.cportId1 val1

def UniproConnection.e2efcEnabled (constants : CportConstants) (c : UniproConnection) : Bool :=
  c.flags &&& constants.flagsE2efc ≠ 0

def UniproConnection.csdEnabled (constants : CportConstants) (c : UniproConnection) : Bool :=
  c.flags &&& constants.flagsCsdN = 0

/-- The part of `switch_cport_connect` for the buffer spaces -/
def switchSetBufferSpace (c : UniproConnection) : ExceptT Int (StateM Switch) Unit := do
  let cport0Local ← switchGetPortL4attr ops c.portId0 .localBufferSpace c.cportId0
  let cport1Local ← switchGetPortL4attr ops c.portId1 .localBufferSpace c.cportId1
  switchSetPairAttr ops c .localBufferSpace cport0Local cport1Local

def switchCportConnect (constants : CportConstants) (c : UniproConnection) : ExceptT Int (StateM Switch) Unit := do
  switchSetPairAttr ops c .connectionState 0 0
  switchSetPairAttr ops c .peerDeviceId (c.deviceId1.setWidth 32) (c.deviceId0.setWidth 32)
  switchSetPairAttr ops c .peerCportId (c.cportId1.setWidth 32) (c.cportId0.setWidth 32)
  switchSetPairAttr ops c .trafficClass (c.tc.setWidth 32) (c.tc.setWidth 32)
  switchSetPairAttr ops c .protocolId defaultProtocolId defaultProtocolId
  switchSetPairAttr ops c .txTokenValue defaultTokenValue defaultTokenValue
  switchSetPairAttr ops c .rxTokenValue defaultTokenValue defaultTokenValue
  switchSetPairAttr ops c .cportFlags (c.flags.setWidth 32) (c.flags.setWidth 32)
  bif c.e2efcEnabled constants || !c.e2efcEnabled constants && c.csdEnabled constants
    then switchSetBufferSpace ops c
    else pure ()
  switchSetPairAttr ops c .cportMode constants.modeApplication constants.modeApplication
  switchSetPairAttr ops c .creditsToSend 0 0
  switchSetPairAttr ops c .tsbMaxSegmentConfig defaultMaxSegmentConfig defaultMaxSegmentConfig
  switchSetPairAttr ops c .connectionState 1 1

end Connect

/-- A port of the switch itself, or the device that is attached to a port -/
inductive Address
  | own (portid : BitVec 8)
  | peer (portid : BitVec 8)
  deriving DecidableEq, Repr

structure Write where
  address : Address
  attrid : Attribute
  selector : BitVec 16
  val : BitVec 32
  deriving DecidableEq, Repr

abbrev Values := Address → Attribute → BitVec 16 → BitVec 32

/-- An attribute store where every access succeeds. `writes` keeps each write with the values before it. -/
structure AttributeStore where
  values : Values
  writes : List (Write × Values)

def AttributeStore.boot (values : Values) : AttributeStore := ⟨values, []⟩

def AttributeStore.write (s : AttributeStore) (w : Write) : AttributeStore where
  values := fun address attrid selector =>
    if address = w.address ∧ attrid = w.attrid ∧ selector = w.selector then w.val
    else s.values address attrid selector
  writes := s.writes ++ [(w, s.values)]

def attributeStoreOps : TsbSwitchOps AttributeStore where
  set portid attrid selector val := modify fun s => s.write ⟨.own portid, attrid, selector, val⟩
  get portid attrid selector := do return (← get).values (.own portid) attrid selector
  peerSet portid attrid selector val := modify fun s => s.write ⟨.peer portid, attrid, selector, val⟩
  peerGet portid attrid selector := do return (← get).values (.peer portid) attrid selector

end Phabos.Switch
