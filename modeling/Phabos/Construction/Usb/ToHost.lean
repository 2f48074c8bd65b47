import Phabos.Construction.Usb.FromHost
import Phabos.Library.Masks

/-
This file embeds the way of a message to the USB host in drivers/usb/gadget/gb-ap-bridge.c: `unipro_to_usb` in the
receive interrupt, `svc_to_usb` in a task that interrupts come between any two steps of, and `usbclass_wrcomplete`.
-/

namespace Phabos.ApBridge.ToHost
open Library UsbHop ApBridge

/-- `struct apbridge_msg_s` -/
structure Message where
  ep : ℕ
  buf : ℕ
  len : ℕ
  deriving DecidableEq, Repr

/-- The bytes that are for an endpoint -/
structure Packet where
  ep : ℕ
  bytes : List UInt8
  deriving DecidableEq, Repr

/-- A request that an endpoint was given, with the bytes of its buffer -/
structure Transfer where
  ep : ℕ
  req : ℕ
  bytes : List UInt8
  deriving DecidableEq, Repr

def Transfer.packet (transfer : Transfer) : Packet := ⟨transfer.ep, transfer.bytes⟩

/-- Where the task is in `svc_to_usb` -/
inductive Place where
  /-- `list_is_empty` of `get_request` -/
  | isEmpty
  /-- `list = list->next` of `get_request` -/
  | next
  /-- `list_del` of `get_request` -/
  | del (req : ℕ)
  /-- `memcpy` of `_to_usb_submit` -/
  | memcpy (req : ℕ)
  /-- `EP_SUBMIT` of `_to_usb_submit` -/
  | submit (req : ℕ) (bytes : List UInt8)
  /-- `malloc` of `apbridge_queue` -/
  | malloc
  /-- `list_add` of `apbridge_queue`, with interrupts disabled -/
  | add
  deriving DecidableEq, Repr

/-- The call is about to submit the request it has. -/
def Place.Submits : Place → Prop
  | .submit _ _ => True
  | _ => False

/-- The call has found no free request and its message is not yet in the queue. -/
def Place.Missed (place : Place) : Prop := place = .malloc ∨ place = .add

/-- The requests from this list that the call has -/
def Place.held (place : Place) (list : ReqList) : List ℕ :=
  match place with
  | .memcpy req | .submit req _ => if .intreq = list then [req] else []
  | _ => []

/-- A call of `svc_to_usb` that has not returned -/
structure Call where
  place : Place
  buf : ℕ
  len : ℕ
  deriving DecidableEq, Repr

/-- `payload` has the bytes at each address. `accepted` has the messages of the calls that returned 0, and `submitted`
what was given to `EP_SUBMIT` and not refused. -/
structure Bridge where
  pool : Pool
  msgQueue : List Message
  cportToEpin : ℕ → ℕ
  payload : ℕ → ℕ → UInt8
  inFlight : List Transfer
  call : Option Call
  unpaused : List ℕ
  accepted : List Packet
  submitted : List Transfer

/-- The bridge after `usbclass_bind` -/
def Bridge.bound (cportToEpin : ℕ → ℕ) (payload : ℕ → ℕ → UInt8) : Bridge :=
  ⟨usbclassBind, [], cportToEpin, payload, [], none, [], [], []⟩

section Bridge
variable (s : Bridge) (buf len : ℕ)

def Bridge.bytes : List UInt8 := (List.range len).map (s.payload buf)

def Bridge.packet (message : Message) : Packet := ⟨message.ep, s.bytes message.buf message.len⟩

/-- A write to a payload -/
def Bridge.write (bytes : ℕ → UInt8) : Bridge := { s with payload := Function.update s.payload buf bytes }

/-- `get_cportid` of the payload -/
def Bridge.cportid : ℕ := getCportid (s.bytes buf hdrSize)

/-- The end of `_to_usb_submit`, after the `memcpy`: what `EP_SUBMIT` returned is the result. -/
def toUsbSubmit (ep req : ℕ) (bytes : List UInt8) (status : Int) : Int × Bridge :=
  let s := if ep ≠ apbridgeEpintin then { s with unpaused := s.unpaused ++ [s.cportid buf] } else s
  if status ≠ 0 then (status, s)
  else
    (0, { s with
      inFlight := s.inFlight ++ [⟨ep, req, bytes⟩]
      submitted := s.submitted ++ [⟨ep, req, bytes⟩] })

/-- `apbridge_queue` -/
def apbridgeQueue (ep : ℕ) (malloc : Bool) : Int × Bridge :=
  if malloc then (0, { s with msgQueue := s.msgQueue ++ [⟨ep, buf, len⟩] })
  else (- ENOMEM, s)

/-- `_to_usb`, with what `malloc` or `EP_SUBMIT` returns -/
def toUsb (epno : ℕ) (malloc : Bool) (status : Int) : Int × Bridge :=
  let ep := usbEpno epno
  match getRequest s.pool (epnoToReqList epno) with
  | none => apbridgeQueue s buf len ep malloc
  | some (req, pool) => toUsbSubmit { s with pool := pool } buf ep req (s.bytes buf len) status

/-- The endpoint number that `unipro_to_usb` finds for the payload -/
def Bridge.epno : ℕ := s.cportToEpin (s.cportid buf) % 256

/-- `unipro_to_usb` -/
def uniproToUsb (malloc : Bool) (status : Int) : Int × Bridge :=
  if apbridgeReqSize < len then (- EINVAL, s)
  else toUsb s buf len (s.epno buf) malloc status

/-- A call for this endpoint returned this. -/
def returned (ep : ℕ) (result : Int × Bridge) : Bridge :=
  if result.1 = 0 then
    { result.2 with accepted := result.2.accepted ++ [⟨ep, result.2.bytes buf len⟩] }
  else result.2

end Bridge

/-- `usbclass_wrcomplete` -/
def usbclassWrcomplete (s : Bridge) (ep req : ℕ) (status : Int) : Bridge :=
  match s.msgQueue with
  | info :: rest =>
    (toUsbSubmit { s with msgQueue := rest } info.buf info.ep req (s.bytes info.buf info.len) status).2
  | [] => { s with pool := putRequest s.pool (epnoToReqList ep) req }

/-- The call of the task is at this place now. -/
def Bridge.goto (s : Bridge) (call : Call) (place : Place) : Bridge :=
  { s with call := some { call with place := place } }

/-- The next step of the task in `svc_to_usb` -/
def svcToUsbStep (s : Bridge) (call : Call) (malloc : Bool) (status : Int) : Option Bridge :=
  match call.place with
  | .isEmpty => some (s.goto call (if s.pool.queue .intreq = [] then .malloc else .next))
  -- A list that became empty is its own first entry: what is done with it then is left out.
  | .next => (s.pool.queue .intreq).head?.map fun req => s.goto call (.del req)
  | .del req =>
    let rest := (s.pool.queue .intreq).erase req
    some ({ s with
      pool := { s.pool with queue := Function.update s.pool.queue .intreq rest } }.goto call (.memcpy req))
  | .memcpy req => some (s.goto call (.submit req (s.bytes call.buf call.len)))
  | .submit req bytes =>
    some (returned call.buf call.len apbridgeEpintin
      (toUsbSubmit { s with call := none } call.buf apbridgeEpintin req bytes status))
  | .malloc => some (if malloc then s.goto call .add else { s with call := none })
  | .add =>
    some (returned call.buf call.len apbridgeEpintin
      (apbridgeQueue { s with call := none } call.buf call.len apbridgeEpintin true))

inductive Event where
  /-- The receive interrupt calls `unipro_to_usb`. -/
  | unipro (buf len : ℕ) (malloc : Bool) (status : Int)
  /-- The task calls `svc_to_usb`. -/
  | svc (buf len : ℕ)
  /-- The task goes on. -/
  | task (malloc : Bool) (status : Int)
  /-- A transfer ends. -/
  | wrcomplete (transfer : Transfer) (status : Int)
  /-- The owner of a payload writes to it. -/
  | write (buf : ℕ) (bytes : ℕ → UInt8)

def step (s : Bridge) : Event → Option Bridge
  | .unipro buf len malloc status =>
    some (returned buf len (usbEpno (s.epno buf)) (uniproToUsb s buf len malloc status))
  | .svc buf len =>
    if s.call.isSome then none
    else if apbridgeEpintinMxpacket < len then some s
    else some { s with call := some ⟨.isEmpty, buf, len⟩ }
  | .task malloc status => s.call.bind fun call => svcToUsbStep s call malloc status
  | .wrcomplete transfer status =>
    if transfer ∈ s.inFlight then
      some (usbclassWrcomplete { s with inFlight := s.inFlight.erase transfer } transfer.ep transfer.req status)
    else none
  | .write buf bytes => some (s.write buf bytes)

/-- The message goes out through a request for writing that is long enough, to an endpoint of the kind of the request. A
message for the interrupt endpoint does not come in the middle of `svc_to_usb`. -/
def Routed (s : Bridge) (epno len : ℕ) : Prop :=
  (epnoToReqList epno).Writes ∧ epnoToReqList (usbEpno epno) = epnoToReqList epno ∧
    usbEpno epno < apbridgeMaxEndpoints ∧ len ≤ (epnoToReqList epno).bufferSize ∧
      (epnoToReqList epno = .intreq → s.call = none)

/-- `EP_SUBMIT` refuses no request, the oldest message is for an endpoint of the kind of the request that is completed,
no request is completed between `get_request` and `apbridge_queue`, and nobody writes to a payload that waits. -/
def Orderly (s : Bridge) : Event → Prop
  | .unipro buf len _ status =>
    len ≤ apbridgeReqSize → Routed s (s.epno buf) len ∧
      (s.pool.queue (epnoToReqList (s.epno buf)) ≠ [] → status = 0)
  | .svc _ _ => True
  | .task _ status => ∀ call ∈ s.call, call.place.Submits → status = 0
  | .wrcomplete transfer status =>
    match s.msgQueue with
    | info :: _ => epnoToReqList info.ep = epnoToReqList transfer.ep ∧ status = 0
    | [] => epnoToReqList transfer.ep = .intreq → ∀ call ∈ s.call, ¬call.place.Missed
  | .write buf bytes =>
    (∀ info ∈ s.msgQueue, (s.write buf bytes).packet info = s.packet info) ∧
      ∀ call ∈ s.call, (s.write buf bytes).bytes call.buf call.len = s.bytes call.buf call.len

/-- The requests that the call of the task has taken from this list -/
def Bridge.held (s : Bridge) (list : ReqList) : List ℕ :=
  match s.call with
  | some call => call.place.held list
  | none => []

/-- The requests of this kind that endpoints of this kind have -/
def Bridge.flying (s : Bridge) (list : ReqList) : List ℕ :=
  (s.inFlight.filter fun transfer => epnoToReqList transfer.ep = list).map Transfer.req

/-- Each accepted message was submitted once or waits, in the order of its endpoint and with its own bytes. The requests
for writing are all where they belong, and a message waits only for want of one. -/
structure Delivered (s : Bridge) : Prop where
  inOrder : SameLanes Packet.ep s.accepted (s.submitted.map Transfer.packet ++ s.msgQueue.map s.packet)
  fits : ∀ transfer ∈ s.submitted, transfer.bytes.length ≤ s.pool.size transfer.req
  conserved : ∀ list : ReqList, list.Writes →
    (s.pool.queue list ++ s.flying list ++ s.held list).Perm (usbclassBind.queue list)
  waits : s.call = none → ∀ info ∈ s.msgQueue, s.pool.queue (epnoToReqList info.ep) = []
  drained : s.call = none → s.inFlight = [] → s.msgQueue = []

instance : DecidablePred Place.Submits
  | .submit _ _ => inferInstanceAs (Decidable True)
  | .isEmpty | .next | .del _ | .memcpy _ | .malloc | .add => inferInstanceAs (Decidable False)

instance (place : Place) : Decidable place.Missed := inferInstanceAs (Decidable (_ ∨ _))

instance (s : Bridge) (epno len : ℕ) : Decidable (Routed s epno len) := inferInstanceAs (Decidable (_ ∧ _))

instance (s : Bridge) : (event : Event) → Decidable (Orderly s event)
  | .unipro _ _ _ _ => inferInstanceAs (Decidable (_ → _))
  | .svc _ _ => inferInstanceAs (Decidable True)
  | .task _ status => inferInstanceAs (Decidable (∀ call ∈ s.call, call.place.Submits → status = 0))
  | .wrcomplete transfer status =>
    match queue : s.msgQueue with
    | info :: _ =>
      decidable_of_iff (epnoToReqList info.ep = epnoToReqList transfer.ep ∧ status = 0)
        (by simp only [Orderly, queue])
    | [] =>
      decidable_of_iff (epnoToReqList transfer.ep = .intreq → ∀ call ∈ s.call, ¬call.place.Missed)
        (by simp only [Orderly, queue])
  | .write _ _ => inferInstanceAs (Decidable (_ ∧ _))

end Phabos.ApBridge.ToHost
