import Phabos.Construction.Unipro.UsbHop
import Phabos.Library.Run

/-
This file embeds the endpoints and the preallocated requests of drivers/usb/gadget/gb-ap-bridge.c. A request is known by
its place in the order in which `usbclass_bind` allocates them.
-/

namespace Phabos.ApBridge
open UsbHop

def ENOMEM : Int := 12

def EINVAL : Int := 22

def ESHUTDOWN : Int := 110

def apbridgeEpintin : ℕ := 1

def apbridgeEpbulkout : ℕ := 2

def apbridgeEpbulkin : ℕ := 3

def apbridgeNbulks : ℕ := 7

def apbridgeNreqs : ℕ := 1

def apbridgeEpintinMxpacket : ℕ := 1024

def apbridgeMxdesclen : ℕ := 64

/-- `APBRIDGE_MAX_ENDPOINTS` -/
def apbridgeMaxEndpoints : ℕ := 1 + 2 * apbridgeNbulks + 1

/-- `USB_EPNO` -/
def usbEpno (addr : ℕ) : ℕ := addr &&& 0x7f

/-- The lists of `struct apbridge_dev_s` -/
inductive ReqList where
  | ctrlreq
  | intreq
  | rdreq
  | wrreq
  deriving DecidableEq, Repr

/-- The requests on this list carry messages to the host. -/
def ReqList.Writes (list : ReqList) : Prop := list = .intreq ∨ list = .wrreq

instance (list : ReqList) : Decidable list.Writes := inferInstanceAs (Decidable (_ ∨ _))

/-- How long the buffers of the requests on this list are -/
def ReqList.bufferSize : ReqList → ℕ
  | .ctrlreq => apbridgeMxdesclen
  | .intreq => apbridgeEpintinMxpacket
  | .rdreq | .wrreq => apbridgeReqSize

/-- `epno_to_req_list` -/
def epnoToReqList (epno : ℕ) : ReqList :=
  if epno = 0 then .ctrlreq
  else if epno = apbridgeEpintin then .intreq
  else if epno % 2 = 0 then .rdreq
  else .wrreq

/-- The requests: how many there are, how long the buffer of each is, and which are on each list -/
structure Pool where
  count : ℕ
  size : ℕ → ℕ
  queue : ReqList → List ℕ

/-- `get_request` -/
def getRequest (pool : Pool) (list : ReqList) : Option (ℕ × Pool) :=
  match pool.queue list with
  | [] => none
  | req :: rest => some (req, { pool with queue := Function.update pool.queue list rest })

/-- `put_request` -/
def putRequest (pool : Pool) (list : ReqList) (req : ℕ) : Pool :=
  { pool with queue := Function.update pool.queue list (pool.queue list ++ [req]) }

/-- `prealloc_request` for this endpoint, when every allocation succeeds -/
def preallocRequest (pool : Pool) (epno size n : ℕ) : Pool :=
  let list := epnoToReqList epno
  { count := pool.count + n
    size := fun req => if pool.count ≤ req ∧ req < pool.count + n then size else pool.size req
    queue := Function.update pool.queue list (pool.queue list ++ List.range' pool.count n) }

/-- The requests after `usbclass_bind` -/
def usbclassBind : Pool :=
  let pool : Pool := ⟨0, fun _ => 0, fun _ => []⟩
  let pool := preallocRequest pool 0 apbridgeMxdesclen 1
  let pool := preallocRequest pool apbridgeEpintin apbridgeEpintinMxpacket 1
  let pool := preallocRequest pool apbridgeEpbulkout apbridgeReqSize (apbridgeNreqs * apbridgeNbulks)
  preallocRequest pool apbridgeEpbulkin apbridgeReqSize (apbridgeNreqs * apbridgeNbulks)

end Phabos.ApBridge

/-
This part embeds the requests of the bulk OUT endpoints: `usbclass_setconfig`, `usbclass_rdcomplete` and
`usb_release_buffer` of drivers/usb/gadget/gb-ap-bridge.c, `release_buffer` and `usb_to_unipro` of
apps/apbridgea/apbridge.c. The asynchronous send of the backend takes a buffer or refuses it, and it calls its completion
once for each buffer that it took.
-/

namespace Phabos.ApBridge.FromHost
open UsbHop ApBridge

/-- A request that an endpoint has -/
structure Transfer where
  ep : ℕ
  req : ℕ
  deriving DecidableEq, Repr

/-- A buffer that the backend holds, with the transfer that it came from -/
structure Send where
  origin : Transfer
  buf : ℕ
  cport : ℕ
  bytes : List UInt8
  deriving DecidableEq, Repr

/-- `BULKEP_TO_N` -/
def bulkepToN (ep : ℕ) : ℕ := (ep - apbridgeEpbulkout) >>> 1

/-- The endpoint for the request at this position of `rdreq` -/
def epAt (position : ℕ) : ℕ := apbridgeEpbulkout + position / apbridgeNreqs * 2

/-- The loop of `usbclass_setconfig` over `rdreq`, from this position on -/
def setconfigLoop : List ℕ → ℕ → List Transfer
  | [], _ => []
  | req :: rest, position => ⟨epAt position, req⟩ :: setconfigLoop rest (position + 1)

/-- The loop of `usb_release_buffer` over `rdreq`, from this position on, when `address` has `req->buf` -/
def releaseLoop (address : ℕ → ℕ) (buf : ℕ) : List ℕ → ℕ → Option Transfer
  | [], _ => none
  | req :: rest, position =>
    if address req = buf then some ⟨epAt position, req⟩ else releaseLoop address buf rest (position + 1)

/-- `completed` has the transfers that ended other than by a shutdown, and `resubmitted` what `usb_release_buffer`
submitted. -/
structure Bridge where
  rdreq : List ℕ
  inFlight : List Transfer
  held : List Send
  down : List Transfer
  completed : List Transfer
  resubmitted : List Transfer

/-- The bridge after `usbclass_bind` and `usbclass_setconfig` -/
def Bridge.configured : Bridge :=
  let rdreq := usbclassBind.queue .rdreq
  ⟨rdreq, setconfigLoop (rdreq.take (apbridgeNbulks * apbridgeNreqs)) 0, [], [], [], []⟩

section Bridge
variable (address epoutToCport : ℕ → ℕ) (s : Bridge)

/-- `usbclass_rdcomplete` for the bytes that were received, when the backend takes a buffer or refuses it -/
def usbclassRdcomplete (transfer : Transfer) (result : Int) (bytes : List UInt8) (takes : Bool) : Bridge :=
  if result = - ESHUTDOWN then { s with down := s.down ++ [transfer] }
  else
    let s := { s with completed := s.completed ++ [transfer] }
    match UsbHop.usbclassRdcomplete epoutToCport result (bulkepToN transfer.ep) bytes with
    | none => s
    | some (cport, bytes) =>
      if takes then { s with held := s.held ++ [⟨transfer, address transfer.req, cport, bytes⟩] } else s

/-- `usb_release_buffer`, with what `EP_SUBMIT` returns -/
def usbReleaseBuffer (buf : ℕ) (submit : Int) : Int × Bridge :=
  match releaseLoop address buf (s.rdreq.take (apbridgeNbulks * apbridgeNreqs)) 0 with
  | none => (- EINVAL, s)
  | some transfer =>
    if submit ≠ 0 then (submit, s)
    else
      (0, { s with inFlight := s.inFlight ++ [transfer], resubmitted := s.resubmitted ++ [transfer] })

end Bridge

inductive Event where
  /-- A transfer ends with this result. -/
  | rdcomplete (transfer : Transfer) (result : Int) (bytes : List UInt8) (takes : Bool)
  /-- The backend has sent a buffer, or has failed to: it calls `release_buffer`. -/
  | sent (send : Send) (status submit : Int)

def step (address epoutToCport : ℕ → ℕ) (s : Bridge) : Event → Option Bridge
  | .rdcomplete transfer result bytes takes =>
    if transfer ∈ s.inFlight then
      some (usbclassRdcomplete address epoutToCport { s with inFlight := s.inFlight.erase transfer } transfer result
        bytes takes)
    else none
  | .sent send _ submit =>
    if send ∈ s.held then
      some (usbReleaseBuffer address { s with held := s.held.erase send } send.buf submit).2
    else none

/-- A transfer ends by a shutdown or with a message that has a header and that the backend takes, and `EP_SUBMIT` does
not refuse. -/
def Event.Returns : Event → Prop
  | .rdcomplete _ result bytes takes =>
    result = - ESHUTDOWN ∨ result = 0 ∧ hdrSize ≤ bytes.length ∧ takes = true
  | .sent _ _ submit => submit = 0

instance : DecidablePred Event.Returns
  | .rdcomplete _ _ _ _ => inferInstanceAs (Decidable (_ ∨ _))
  | .sent _ _ _ => inferInstanceAs (Decidable (_ = _))

/-- Each completed request was submitted once to its endpoint or is held by the backend, no endpoint has a request whose
buffer is held, and each bulk OUT endpoint that was not shut down has its request or gets it back. -/
structure Kept (address : ℕ → ℕ) (s : Bridge) : Prop where
  again : (s.resubmitted ++ s.held.map Send.origin).Perm s.completed
  apart : ∀ transfer ∈ s.inFlight, ∀ send ∈ s.held, send.buf ≠ address transfer.req
  receives : ∀ i < apbridgeNbulks, ∃ transfer ∈ s.inFlight ++ s.held.map Send.origin ++ s.down,
    transfer.ep = apbridgeEpbulkout + 2 * i

end Phabos.ApBridge.FromHost
