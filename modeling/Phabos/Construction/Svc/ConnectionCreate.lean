import Mathlib.Data.Nat.Notation
import Phabos.Construction.Svc.TsbSwitch

/-
This file embeds `switch_connection_create` of apps/svc/tsb_switch.c, with the configuration of the links before the
CPorts are connected and the disconnection when that fails, and an attribute store in which an access fails.
-/

namespace Phabos.Switch

def EINVAL : Int := 22

def ETIMEDOUT : Int := 116

/-- `PA_CONN_TX_DATA_LANES_NR` and `PA_CONN_RX_DATA_LANES_NR` -/
def connDataLanesNr : BitVec 32 := 2

def linkDefaultHsGear : BitVec 32 := 1

def linkDefaultHsNlanes : BitVec 32 := 2

/-- `upro_pwr_fc0_protection_timeout` of `TSB_DEFAULT_PWR_USER_DATA`, which has no other value -/
def fc0ProtectionTimeout : BitVec 32 := 0x1fff

/-- The values of `TSB_DME_POWERMODEIND` that are no errors -/
def powerModeIndNone : BitVec 32 := 0

def powerModeIndOk : BitVec 32 := 1

def powerModeIndLocal : BitVec 32 := 2

def powerModeIndRemote : BitVec 32 := 4

/-- The attributes of a link that are written for a power mode change -/
inductive LinkAttribute
  | txGear
  | txTermination
  | activeTxDataLanes
  | rxGear
  | rxTermination
  | activeRxDataLanes
  | scrambling
  | pwrModeUserData0
  | pwrMode
  deriving DecidableEq, Repr

/-- The accesses of a switch driver to a link: `switch_dme_set` of one of its attributes, `switch_dme_get` of
`TSB_DME_POWERMODEIND`, and the `switch_dme_peer_get` of `T_CONNECTIONSTATE` that tests it -/
structure LinkOps (Switch : Type) where
  set : BitVec 8 → LinkAttribute → BitVec 32 → ExceptT Int (StateM Switch) Unit
  getPowerModeInd : BitVec 8 → ExceptT Int (StateM Switch) (BitVec 32)
  testLink : BitVec 8 → ExceptT Int (StateM Switch) (BitVec 32)

section Create
variable {Switch : Type} (links : LinkOps Switch) (ops : TsbSwitchOps Switch)

/-- The value of a disjunction of return codes is 1 when one of them is an error. -/
def disjunction (accesses : ExceptT Int (StateM Switch) Unit) : ExceptT Int (StateM Switch) Unit :=
  tryCatch accesses fun _ => throw 1

def switchConfigureLinkTx (portId : BitVec 8) (gear nlanes : BitVec 32) : ExceptT Int (StateM Switch) Unit :=
  disjunction do
    links.set portId .txGear gear
    links.set portId .txTermination 1
    links.set portId .activeTxDataLanes nlanes

def switchConfigureLinkRx (portId : BitVec 8) (gear nlanes : BitVec 32) : ExceptT Int (StateM Switch) Unit :=
  disjunction do
    links.set portId .rxGear gear
    links.set portId .rxTermination 1
    links.set portId .activeRxDataLanes nlanes

/-- The loop of `switch_apply_power_mode`, with the tries that are left -/
def pollPowerMode (portId : BitVec 8) : ℕ → ExceptT Int (StateM Switch) Unit
  | 0 => throw (- ETIMEDOUT)
  | tries + 1 => do
    let val ← links.getPowerModeInd portId
    if val = powerModeIndLocal then pure ()
    else if val = powerModeIndNone ∨ val = powerModeIndOk ∨ val = powerModeIndRemote then pollPowerMode portId tries
    else throw val.toInt

def switchApplyPowerMode (portId : BitVec 8) (pwrMode : BitVec 32) : ExceptT Int (StateM Switch) Unit := do
  -- The result of a previous change is read, or an error is ignored.
  tryCatch (do let _ ← links.getPowerModeInd portId) fun _ => pure ()
  links.set portId .pwrMode pwrMode
  pollPowerMode links portId 100
  let _ ← links.testLink portId

/-- `switch_active_cfg_is_sane` for a fast mode -/
def switchActiveCfgIsSane (gear nlanes : BitVec 32) : Bool :=
  nlanes ≤ connDataLanesNr && !(gear = 0 || 3 < gear)

/-- `switch_configure_link` as `switch_configure_link_hs` calls it: both directions in `UNIPRO_FAST_MODE`, the series
unchanged, without scrambling and without extensions -/
def switchConfigureLinkHs (fastMode : BitVec 32) (portId : BitVec 8) (gear nlanes : BitVec 32) :
    ExceptT Int (StateM Switch) Unit := do
  if switchActiveCfgIsSane gear nlanes then
    disjunction do
      switchConfigureLinkTx links portId gear nlanes
      switchConfigureLinkRx links portId gear nlanes
    links.set portId .scrambling 0
    links.set portId .pwrModeUserData0 fc0ProtectionTimeout
    switchApplyPowerMode links portId (fastMode ||| fastMode <<< 4)
  else throw (- EINVAL)

def switchLinkPowerSetDefault (fastMode : BitVec 32) (portId : BitVec 8) : ExceptT Int (StateM Switch) Unit :=
  switchConfigureLinkHs links fastMode portId linkDefaultHsGear linkDefaultHsNlanes

/-- The values that the links and the CPorts are configured with, and whether the links are at all: they are not on the
boards BDB2 and SDB. -/
structure SetUpConstants where
  cports : CportConstants
  fastMode : BitVec 32
  setsLinks : Bool

/-- The part of `switch_connection_create` for the links -/
def configureLinks (constants : SetUpConstants) (c : UniproConnection) : ExceptT Int (StateM Switch) Unit := do
  if constants.setsLinks then
    switchLinkPowerSetDefault links constants.fastMode c.portId0
    switchLinkPowerSetDefault links constants.fastMode c.portId1
  else pure ()

/-- Whether an access fails -/
def fails (access : ExceptT Int (StateM Switch) Unit) : ExceptT Int (StateM Switch) Bool :=
  tryCatch (do access; return false) fun _ => return true

/-- The ids of the CPorts are bytes here. -/
def switchCportDisconnect (portId0 cportId0 portId1 cportId1 : BitVec 8) : ExceptT Int (StateM Switch) Bool := do
  let rc0 ← fails (ops.peerSet portId0 .connectionState (cportId0.setWidth 16) 0)
  let rc1 ← fails (ops.peerSet portId1 .connectionState (cportId1.setWidth 16) 0)
  return rc0 || rc1

/-- An error of the set-up is returned when the CPorts have been disconnected. -/
def orDisconnect (c : UniproConnection) (setUp : ExceptT Int (StateM Switch) Unit) : ExceptT Int (StateM Switch) Unit :=
  tryCatch setUp fun rc => do
    let _ ← switchCportDisconnect ops c.portId0 (c.cportId0.setWidth 8) c.portId1 (c.cportId1.setWidth 8)
    throw rc

def switchConnectionCreate (constants : SetUpConstants) :
    Option UniproConnection → ExceptT Int (StateM Switch) Unit
  | none => throw (- EINVAL)
  | some c => do
    orDisconnect ops c (configureLinks links constants c)
    orDisconnect ops c (switchCportConnect ops constants.cports c)

end Create

/-- An access by its number among those of the links or those of the CPorts -/
inductive Place
  | link (number : ℕ)
  | cport (number : ℕ)
  deriving DecidableEq, Repr

/-- The access that fails, and its return code -/
structure Fault where
  place : Place
  rc : Int
  error : rc ≠ 0

/-- An attribute store with the attributes of the links, which counts its accesses -/
structure FaultyStore where
  store : AttributeStore
  links : BitVec 8 → LinkAttribute → BitVec 32
  linkAccesses : ℕ
  accesses : ℕ

def FaultyStore.boot (values : Values) (links : BitVec 8 → LinkAttribute → BitVec 32) : FaultyStore :=
  ⟨.boot values, links, 0, 0⟩

section Faulty
variable (fault : Option Fault)

/-- An access without an effect, if it is the one that fails -/
def failAt (place : Place) : ExceptT Int (StateM FaultyStore) Unit :=
  match fault with
  | none => pure ()
  | some fault => if fault.place = place then throw fault.rc else pure ()

def accessCport : ExceptT Int (StateM FaultyStore) Unit := do
  let s ← get
  set { s with accesses := s.accesses + 1 }
  failAt fault (.cport s.accesses)

def accessLink : ExceptT Int (StateM FaultyStore) Unit := do
  let s ← get
  set { s with linkAccesses := s.linkAccesses + 1 }
  failAt fault (.link s.linkAccesses)

def FaultyStore.write (s : FaultyStore) (w : Write) : FaultyStore := { s with store := s.store.write w }

def FaultyStore.writeLink (s : FaultyStore) (portId : BitVec 8) (attrid : LinkAttribute) (val : BitVec 32) :
    FaultyStore :=
  { s with
    links := fun port attr => if port = portId ∧ attr = attrid then val else s.links port attr }

def faultyOps : TsbSwitchOps FaultyStore where
  set portid attrid selector val := do
    accessCport fault
    modify (·.write ⟨.own portid, attrid, selector, val⟩)
  get portid attrid selector := do
    accessCport fault
    return (← get).store.values (.own portid) attrid selector
  peerSet portid attrid selector val := do
    accessCport fault
    modify (·.write ⟨.peer portid, attrid, selector, val⟩)
  peerGet portid attrid selector := do
    accessCport fault
    return (← get).store.values (.peer portid) attrid selector

/-- `indication` is what the hardware answers, by the number of the access. `UNIPRO_SELINDEX_NULL` is
`selindexNull`. -/
def faultyLinkOps (selindexNull : BitVec 16) (indication : ℕ → BitVec 32) : LinkOps FaultyStore where
  set portid attrid val := do
    accessLink fault
    modify (·.writeLink portid attrid val)
  getPowerModeInd _ := do
    accessLink fault
    return indication (← get).linkAccesses
  testLink portid := do
    accessLink fault
    return (← get).store.values (.peer portid) .connectionState selindexNull

end Faulty

end Phabos.Switch
