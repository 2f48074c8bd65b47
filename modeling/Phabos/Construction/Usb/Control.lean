import Phabos.Construction.Usb.FromHost

/-
This file embeds the control transfers of drivers/usb/gadget/gb-ap-bridge.c: `usbclass_setup` with the descriptors that it
builds, and `usbclass_ep0incomplete`, which completes each transfer. There is one control request; an access to its
buffer is known by how many bytes from the start it reaches.
-/

namespace Phabos.ApBridge.Control
open UsbHop ApBridge

def EOPNOTSUPP : Int := 95

def EDOM : Int := 33

/-- `struct usb_ctrlreq_s` -/
structure CtrlReq where
  type : UInt8
  req : UInt8
  value : UInt8 × UInt8
  index : UInt8 × UInt8
  len : UInt8 × UInt8
  deriving DecidableEq, Repr

/-- `GETUINT16` -/
def getUint16 (p : UInt8 × UInt8) : ℕ := p.2.toNat <<< 8 ||| p.1.toNat

/-- `enum ctrlreq_state` -/
inductive CtrlReqState where
  | usbReq
  | greybusSvcReq
  | greybusLog
  | greybusEpMapping
  deriving DecidableEq, Repr

/-- The bytes of a 16-bit value, low byte first -/
def lsbMsb (u16 : ℕ) : List UInt8 := [UInt8.ofNat u16, UInt8.ofNat (u16 >>> 8)]

/-- `APBRIDGE_NENDPOINTS` -/
def apbridgeNendpoints : ℕ := 1 + apbridgeNbulks <<< 1

def gDevdesc : List UInt8 :=
  [18, 1] ++ lsbMsb 0x0200 ++ [0, 0, 0, 64] ++ lsbMsb 0xffff ++ lsbMsb 0x2 ++ lsbMsb 0x0001 ++ [1, 2, 3, 1]

def gQualdesc : List UInt8 := [10, 6] ++ lsbMsb 0x0200 ++ [0, 0, 0, 64, 1, 0]

/-- The fields of `g_usbdesc[i]` that differ: address, attributes, packet size and interval -/
def gUsbdesc (i : ℕ) : UInt8 × UInt8 × ℕ × UInt8 :=
  if i = apbridgeEpintin then (0x81, 3, apbridgeEpintinMxpacket, 1)
  else if i % 2 = 0 then (UInt8.ofNat i, 2, 512, 0)
  else (UInt8.ofNat (0x80 + i), 2, 512, 0)

/-- `usbclass_mkepdesc` for `g_usbdesc[i]` -/
def usbclassMkepdesc (i mxpacket : ℕ) : List UInt8 :=
  let (addr, attr, _, interval) := gUsbdesc i
  [7, 5, addr, attr] ++ lsbMsb mxpacket ++ [interval]

/-- `usbclass_mkcfgdesc` -/
def usbclassMkcfgdesc (hispeed : Bool) (type : UInt8) : List UInt8 :=
  let totallen := 9 + 9 + apbridgeNendpoints * 7
  let hispeed := if type = 0x07 then !hispeed else hispeed
  let endpoints := (List.range apbridgeNendpoints).flatMap fun i =>
    usbclassMkepdesc (i + 1) (if hispeed then (gUsbdesc (i + 1)).2.2.1 else 64)
  [9, 2] ++ lsbMsb totallen ++ [1, 1, 4, 0xe0, 0] ++ [9, 4, 0, 0, UInt8.ofNat apbridgeNendpoints, 0xff, 0, 0, 4] ++
    endpoints

/-- The strings by their ids -/
def stringOf (id : UInt8) : Option (List Char) :=
  if id = 1 then some ['T', 'o', 's', 'h', 'i', 'b', 'a']
  else if id = 2 then some ['A', 'P', 'B', 'r', 'i', 'd', 'g', 'e']
  else if id = 3 then some ['0']
  else if id = 4 then some ['B', 'u', 'l', 'k']
  else none

/-- `usbclass_mkstrdesc` -/
def usbclassMkstrdesc (id : UInt8) : Option (List UInt8) :=
  if id = 0 then some ([4, 3] ++ lsbMsb 0x0409)
  else (stringOf id).map fun str =>
    [UInt8.ofNat (2 * str.length + 2), 3] ++ str.flatMap fun c => [UInt8.ofNat c.toNat, 0]

/-- `memory` has the bytes from the start of the request's buffer on, and `reach` tells how many of them were accessed.
`hasSvc` tells whether the driver has a `usb_to_svc`. -/
structure Bridge where
  pool : Pool
  hispeed : Bool
  config : ℕ
  hasSvc : Bool
  cportToEpin : ℕ → ℕ
  epoutToCport : ℕ → ℕ
  memory : ℕ → UInt8
  reach : ℕ
  halted : Bool

/-- The bridge after `usbclass_bind` -/
def Bridge.bound (hispeed hasSvc : Bool) : Bridge :=
  ⟨usbclassBind, hispeed, 0, hasSvc, fun _ => apbridgeEpbulkin, fun _ => 0, fun _ => 0, 0, false⟩

/-- `usbclass_setconfig`, with the result of the first `EP_CONFIGURE` or `EP_SUBMIT` that fails, or 0 -/
def usbclassSetconfig (current config : ℕ) (outcome : Int) : Int × ℕ :=
  if config = current then (0, current)
  else if config = 0 then (0, 0)
  else if config ≠ 1 then (- EINVAL, 0)
  else if outcome < 0 then (outcome, 0)
  else (0, 1)

/-- What the switch of `usbclass_setup` leaves: `ret`, the bytes from the start of the buffer on, `ctrreq->priv` and the
configuration -/
structure Reply where
  ret : Int
  bytes : List UInt8
  state : CtrlReqState
  config : ℕ

section Reply
variable (config : ℕ) (ctrl : CtrlReq)

/-- The branches that leave `ret` as it was or set an error -/
def Reply.refuse (ret : Int) : Reply := ⟨ret, [], .usbReq, config⟩

/-- The branches that put bytes into the buffer and return their number -/
def Reply.ofBytes (bytes : List UInt8) : Reply := ⟨bytes.length, bytes, .usbReq, config⟩

/-- `USB_REQ_GETDESCRIPTOR` -/
def getDescriptor (hispeed : Bool) : Reply :=
  if ctrl.value.2 = 0x01 then .ofBytes config gDevdesc
  else if ctrl.value.2 = 0x06 then .ofBytes config gQualdesc
  else if ctrl.value.2 = 0x07 ∨ ctrl.value.2 = 0x02 then .ofBytes config (usbclassMkcfgdesc hispeed ctrl.req)
  else if ctrl.value.2 = 0x03 then
    match usbclassMkstrdesc ctrl.value.1 with
    | some bytes => .ofBytes config bytes
    | none => .refuse config (- EINVAL)
  else .refuse config (- EOPNOTSUPP)

/-- `USB_REQ_TYPE_STANDARD` -/
def standard (hispeed : Bool) (outcome : Int) : Reply :=
  if ctrl.req = 0x06 then getDescriptor config ctrl hispeed
  else if ctrl.req = 0x09 then
    if ctrl.type = 0 then
      let (ret, config) := usbclassSetconfig config (getUint16 ctrl.value % 256) outcome
      ⟨ret, [], .usbReq, config⟩
    else .refuse config (- EOPNOTSUPP)
  else if ctrl.req = 0x08 then
    if ctrl.type = 0x80 then .ofBytes config [UInt8.ofNat config] else .refuse config (- EOPNOTSUPP)
  else if ctrl.req = 0x0b then
    if ctrl.type = 0x01 ∧ config = 1 ∧ getUint16 ctrl.index = 0 ∧ getUint16 ctrl.value = 0 then
      -- `usbclass_resetconfig` has cleared the configuration that is then set.
      ⟨0, [], .usbReq, (usbclassSetconfig 0 0 outcome).2⟩
    else .refuse config (- EOPNOTSUPP)
  else if ctrl.req = 0x0a then
    if ctrl.type = 0x81 ∧ config = 0 then
      if getUint16 ctrl.index ≠ 0 then .refuse config (- EDOM) else .ofBytes config [0]
    else .refuse config (- EOPNOTSUPP)
  else .refuse config (- EOPNOTSUPP)

/-- The bytes of `0xdeadbeef` -/
def deadbeef : List UInt8 := [0xef, 0xbe, 0xad, 0xde]

/-- `USB_REQ_TYPE_VENDOR`, without `CONFIG_APB_USB_LOG` -/
def vendor : Reply :=
  if ctrl.type &&& 0x1f = 0x01 then
    if ctrl.req = 0x01 then
      if ctrl.type &&& 0x80 ≠ 0 then .ofBytes config deadbeef
      else ⟨getUint16 ctrl.len, [], .greybusSvcReq, config⟩
    else if ctrl.req = 0x02 then
      if ctrl.type &&& 0x80 = 0 then .refuse config (- EOPNOTSUPP) else .ofBytes config []
    else if ctrl.req = 0x03 then
      if ctrl.type &&& 0x80 ≠ 0 then .ofBytes config deadbeef
      else ⟨getUint16 ctrl.len, [], .greybusEpMapping, config⟩
    else .refuse config (- EOPNOTSUPP)
  else .refuse config (- EOPNOTSUPP)

/-- The switch of `usbclass_setup` -/
def reply (hispeed : Bool) (outcome : Int) : Reply :=
  if ctrl.type &&& 0x60 = 0x00 then standard config ctrl hispeed outcome
  else if ctrl.type &&& 0x60 = 0x40 then vendor config ctrl
  else .refuse config (- EOPNOTSUPP)

end Reply

section Bridge
variable (s : Bridge)

/-- An access to this many bytes from the start of the buffer -/
def Bridge.access (len : ℕ) : Bridge := { s with reach := max s.reach len }

/-- `memcpy` to the start of the buffer -/
def Bridge.fill (bytes : List UInt8) : Bridge :=
  { s.access bytes.length with memory := fun i => (bytes[i]?).getD (s.memory i) }

/-- `map_cport_to_ep` of the request's buffer -/
def mapCportToEp : Bridge :=
  let cportid := getUint16 (s.memory 0, s.memory 1)
  let epOut := s.memory 3 - UInt8.ofNat apbridgeEpbulkout
  { s.access 4 with
    cportToEpin := Function.update s.cportToEpin cportid (s.memory 2).toNat
    epoutToCport := Function.update s.epoutToCport (epOut.toNat >>> 1) cportid }

/-- `usbclass_ep0incomplete`. A `usb_to_svc` that the driver does not have is a null pointer. -/
def usbclassEp0incomplete (req len : ℕ) (state : CtrlReqState) : Bridge :=
  match state with
  | .greybusSvcReq =>
    if s.hasSvc then { s.access len with pool := putRequest s.pool .ctrlreq req } else { s with halted := true }
  | .greybusEpMapping => { mapCportToEp s with pool := putRequest s.pool .ctrlreq req }
  | .usbReq | .greybusLog => { s with pool := putRequest s.pool .ctrlreq req }

/-- The data stage of a transfer of this many bytes: the host sends or takes them. -/
def Bridge.dataStage (toHost : Bool) (len : ℕ) (data : ℕ → UInt8) : Bridge :=
  if toHost then s.access len else s.fill ((List.range len).map data)

/-- `usbclass_setup` and the transfer: what `EP_CONFIGURE` and `EP_SUBMIT` return in `usbclass_setconfig`, what
`EP_SUBMIT` returns for the control request, and what the host sends -/
structure Setup where
  ctrl : CtrlReq
  outcome : Int
  submit : Int
  data : ℕ → UInt8

def usbclassSetup (setup : Setup) : Bridge :=
  match getRequest s.pool .ctrlreq with
  | none => { s with halted := true }
  | some (req, pool) =>
    let answer := reply s.config setup.ctrl s.hispeed setup.outcome
    let s := ({ s with pool := pool, config := answer.config }).fill answer.bytes
    if answer.ret < 0 then s
    else
      let len := min (getUint16 setup.ctrl.len) answer.ret.toNat
      if setup.submit < 0 then usbclassEp0incomplete s req len answer.state
      else
        let toHost := setup.ctrl.type &&& 0x80 ≠ 0
        usbclassEp0incomplete (s.dataStage toHost len setup.data) req len answer.state

/-- Nothing runs any more after a null pointer was followed. -/
def step (setup : Setup) : Option Bridge :=
  if s.halted then none else some (usbclassSetup s setup)

/-- The request is not stalled and not for a descriptor of a configuration, and what the host sends fits in the buffer
and has somebody to go to. -/
def Answered (setup : Setup) : Prop :=
  let ctrl := setup.ctrl
  (ctrl.type &&& 0x60 = 0x00 ∧
    (ctrl.req = 0x06 ∧ (ctrl.value.2 = 0x01 ∨ ctrl.value.2 = 0x06 ∨ ctrl.value.2 = 0x03 ∧ ctrl.value.1 ≤ 4) ∨
      ctrl.req = 0x09 ∧ ctrl.type = 0 ∧ (getUint16 ctrl.value % 256 = s.config ∨ getUint16 ctrl.value % 256 = 0 ∨
        getUint16 ctrl.value % 256 = 1 ∧ 0 ≤ setup.outcome) ∨
      ctrl.req = 0x08 ∧ ctrl.type = 0x80 ∨
      ctrl.req = 0x0b ∧ ctrl.type = 0x01 ∧ s.config = 1 ∧ getUint16 ctrl.index = 0 ∧ getUint16 ctrl.value = 0 ∨
      ctrl.req = 0x0a ∧ ctrl.type = 0x81 ∧ s.config = 0 ∧ getUint16 ctrl.index = 0)) ∨
  (ctrl.type &&& 0x60 = 0x40 ∧ ctrl.type &&& 0x1f = 0x01 ∧
    (ctrl.type &&& 0x80 ≠ 0 ∧ (ctrl.req = 0x01 ∨ ctrl.req = 0x02 ∨ ctrl.req = 0x03) ∨
      ctrl.type &&& 0x80 = 0 ∧ (ctrl.req = 0x01 ∧ s.hasSvc = true ∧ getUint16 ctrl.len ≤ apbridgeMxdesclen ∨
        ctrl.req = 0x03 ∧ (getUint16 ctrl.len ≤ apbridgeMxdesclen ∨ setup.submit < 0))))

instance (setup : Setup) : Decidable (Answered s setup) := inferInstanceAs (Decidable (_ ∨ _))

/-- The control request is on its list, each setup found one there, and no access went outside its buffer. -/
structure Conserved : Prop where
  running : s.halted = false
  back : s.pool.queue .ctrlreq = usbclassBind.queue .ctrlreq
  inside : s.reach ≤ apbridgeMxdesclen

end Bridge

end Phabos.ApBridge.Control

/-
This part embeds the tables between CPorts and endpoints of drivers/usb/gadget/gb-ap-bridge.c: `map_cport_to_ep` for the
bytes that the data stage of a request left in the buffer, and the accesses of `unipro_to_usb`, `_to_usb`,
`usbclass_rdcomplete` and `usbclass_wrcomplete`.
-/

namespace Phabos.ApBridge.Mapping
open UsbHop ApBridge

/-- The arrays of `struct apbridge_dev_s` -/
inductive Table where
  | cportToEpinN
  | epoutToCportN
  | ep
  deriving DecidableEq, Repr

/-- The length of an array. `usbdev_apbinitialize` allocates the first one for `cport_count` CPorts. -/
def Table.size (cportCount : ℕ) : Table → ℕ
  | .cportToEpinN => cportCount
  | .epoutToCportN => apbridgeNbulks
  | .ep => apbridgeMaxEndpoints

/-- Where a message to the host comes from -/
inductive Source where
  | unipro
  | svc
  deriving DecidableEq, Repr

/-- `struct apbridge_msg_s`, with the number of the endpoint -/
structure Message where
  source : Source
  ep : ℕ
  deriving DecidableEq, Repr

/-- `submitted` has what was given to `EP_SUBMIT` for messages from UniPro, and `accesses` the elements of the arrays that
were used. -/
structure Bridge where
  control : Control.Bridge
  msgQueue : List Message
  inFlight : List FromHost.Transfer
  submitted : List FromHost.Transfer
  accesses : List (Table × ℕ)

/-- The bridge after `usbdev_apbinitialize` and `usbclass_bind`, with what lies behind the first array and in the buffer of
the control request -/
def Bridge.bound (cportCount : ℕ) (behind : ℕ → ℕ) (memory : ℕ → UInt8) : Bridge :=
  let control := Control.Bridge.bound true true
  { control := { control with
      cportToEpin := fun i => if i < cportCount then apbridgeEpbulkin else behind i
      memory := memory }
    msgQueue := []
    inFlight := []
    submitted := []
    accesses := [] }

section Bridge
variable (s : Bridge)

def Bridge.access (table : Table) (index : ℕ) : Bridge := { s with accesses := s.accesses ++ [(table, index)] }

/-- The CPort that a mapping in the buffer is for -/
def mappedCport (memory : ℕ → UInt8) : ℕ := Control.getUint16 (memory 0, memory 1)

/-- The element of the second array for `endpoint_out`, which the subtraction takes modulo 256 -/
def mappedEpout (memory : ℕ → UInt8) : ℕ := (memory 3 - UInt8.ofNat apbridgeEpbulkout).toNat >>> 1

/-- `usbclass_ep0incomplete` of an endpoint mapping, of which these bytes have arrived -/
def mapCportToEp (data : List UInt8) : Bridge :=
  let control := s.control.fill data
  let s := (s.access .cportToEpinN (mappedCport control.memory)).access .epoutToCportN (mappedEpout control.memory)
  { s with control := Control.mapCportToEp control }

/-- `_to_usb_submit`, with what `EP_SUBMIT` returns -/
def toUsbSubmit (source : Source) (transfer : FromHost.Transfer) (status : Int) : Bridge :=
  let s := if source = .unipro then { s with submitted := s.submitted ++ [transfer] } else s
  if status ≠ 0 then s else { s with inFlight := s.inFlight ++ [transfer] }

/-- `_to_usb`, with what `malloc` or `EP_SUBMIT` returns -/
def toUsb (source : Source) (epno : ℕ) (malloc : Bool) (status : Int) : Bridge :=
  let ep := usbEpno epno
  match getRequest s.control.pool (epnoToReqList epno) with
  | none =>
    let s := s.access .ep ep
    if malloc then { s with msgQueue := s.msgQueue ++ [⟨source, ep⟩] } else s
  | some (req, pool) =>
    let s := s.access .ep ep
    toUsbSubmit { s with control := { s.control with pool := pool } } source ⟨ep, req⟩ status

/-- `unipro_to_usb` -/
def uniproToUsb (payload : List UInt8) (len : ℕ) (malloc : Bool) (status : Int) : Bridge :=
  if apbridgeReqSize < len then s
  else
    let cportid := getCportid payload
    toUsb (s.access .cportToEpinN cportid) .unipro (s.control.cportToEpin cportid % 256) malloc status

/-- `svc_to_usb` -/
def svcToUsb (len : ℕ) (malloc : Bool) (status : Int) : Bridge :=
  if apbridgeEpintinMxpacket < len then s else toUsb s .svc apbridgeEpintin malloc status

/-- `usbclass_rdcomplete` on a bulk endpoint, up to `usb_to_unipro` -/
def usbclassRdcomplete (ep : ℕ) (result : Int) : Bridge :=
  let epN := FromHost.bulkepToN ep
  if result = 0 ∧ epN ≠ 0 then s.access .epoutToCportN epN else s

/-- `usbclass_wrcomplete`, with what `EP_SUBMIT` returns -/
def usbclassWrcomplete (transfer : FromHost.Transfer) (status : Int) : Bridge :=
  match s.msgQueue with
  | info :: rest => toUsbSubmit { s with msgQueue := rest } info.source ⟨info.ep, transfer.req⟩ status
  | [] => { s with control := { s.control with
      pool := putRequest s.control.pool (epnoToReqList transfer.ep) transfer.req } }

end Bridge

inductive Event where
  /-- An endpoint mapping is completed with these bytes of its data stage. -/
  | mapping (data : List UInt8)
  /-- Another control request puts these bytes into the buffer. -/
  | control (data : List UInt8)
  | unipro (payload : List UInt8) (len : ℕ) (malloc : Bool) (status : Int)
  | svc (len : ℕ) (malloc : Bool) (status : Int)
  /-- A transfer to the host ends. -/
  | wrcomplete (transfer : FromHost.Transfer) (status : Int)
  /-- A transfer from the host ends on a bulk OUT endpoint. -/
  | rdcomplete (ep : ℕ) (result : Int)

def step (s : Bridge) : Event → Option Bridge
  | .mapping data => some (mapCportToEp s data)
  | .control data => some { s with control := s.control.fill data }
  | .unipro payload len malloc status => some (uniproToUsb s payload len malloc status)
  | .svc len malloc status => some (svcToUsb s len malloc status)
  | .wrcomplete transfer status =>
    if transfer ∈ s.inFlight then
      some (usbclassWrcomplete { s with inFlight := s.inFlight.erase transfer } transfer status)
    else none
  | .rdcomplete ep result =>
    if ep < apbridgeMaxEndpoints ∧ ep ≠ 0 ∧ ep % 2 = 0 then some (usbclassRdcomplete s ep result) else none

end Phabos.ApBridge.Mapping
