import Phabos.Construction.Greybus.Receive
import Phabos.Construction.Greybus.Registration

/-
This file embeds the way of received messages to the handlers of a registered driver in
drivers/greybus/greybus-core.c: `greybus_rx_handler`, the queue with its semaphore and the worker of a CPort. A section
under a spinlock or with interrupts disabled is one step.
-/

namespace Phabos.Greybus.Dispatch
open Library

/-- The header at the front of a message -/
def hdrOf (data : List UInt8) : GbOperationHdr where
  size := BitVec.ofNat 16 (le16 data 0)
  id := BitVec.ofNat 16 (le16 data 2)
  type := hdrType data
  result := BitVec.ofNat 8 (data.getD 5 0).toNat

/-- The entries of `rx_fifo` -/
inductive RxItem where
  | timedout
  | message (data : List UInt8)
  deriving DecidableEq

/-- The worker is before `semaphore_lock`, or has passed it and takes an entry, or has taken one. -/
inductive Worker where
  | lock
  | take
  | process (item : RxItem)
  deriving DecidableEq

/-- What has happened to messages: a fast handler was called, or the worker has cleaned up operations that timed out,
has matched a response, or has handed a request to a handler or to none and left a session. -/
inductive Event where
  | fast (opHandler : GbOperationHandler) (data : List UInt8)
  | timedout
  | response (data : List UInt8)
  | request (opHandler : Option GbOperationHandler) (data : List UInt8) (session : Session)

/-- `enqueued` keeps the messages that have been put on `rx_fifo`. -/
structure State where
  rxFifo : List RxItem
  rxFifoSemaphore : Int
  worker : Worker
  events : List Event
  enqueued : List (List UInt8)

/-- `gb_init_cport` and the start of the worker -/
def initial : State := ⟨[], 0, .lock, [], []⟩

section Handlers
variable (opHandlers : Option (List GbOperationHandler))

def State.listAdd (s : State) (item : RxItem) : State :=
  { s with rxFifo := s.rxFifo ++ [item], rxFifoSemaphore := s.rxFifoSemaphore + 1 }

/-- `memory` tells whether `gb_operation_create` has memory for the operation. -/
def greybusRxHandler (s : State) (data : List UInt8) (memory : Bool) : State :=
  if opHandlers.isNone then s
  else if data.length < hdrSize then s
  else if data.length < le16 data 0 ∨ le16 data 0 < hdrSize then s
  else
    let queue : State := if memory then { s.listAdd (.message data) with enqueued := s.enqueued ++ [data] } else s
    match findOperationHandler opHandlers (hdrType data) with
    | some opHandler =>
      if opHandler.hasFastHandler then { s with events := s.events ++ [.fast opHandler data] } else queue
    | none => queue

/-- The timed-out operation is queued once. -/
def gbOperationTimeout (s : State) : State := if .timedout ∈ s.rxFifo then s else s.listAdd .timedout

/-- What the worker does with the entry that it has taken -/
def processItem (mallocs : Stream' Bool) (transport : Stream' Int) : RxItem → Event
  | .timedout => .timedout
  | .message data =>
    if hdrType data &&& TYPE_RESPONSE_FLAG ≠ 0 then .response data
    else
      .request (findOperationHandler opHandlers (hdrType data)) data
        (gbProcessRequest opHandlers (.deliver (hdrOf data) mallocs transport))

/-- A step of `gb_pending_message_worker`. There is none where it waits for the semaphore, and none where it would take
the head of an empty list. -/
def gbPendingMessageWorker (s : State) (mallocs : Stream' Bool) (transport : Stream' Int) : Option State :=
  match s.worker with
  | .lock =>
    if s.rxFifoSemaphore ≤ 0 then none
    else some { s with rxFifoSemaphore := s.rxFifoSemaphore - 1, worker := .take }
  | .take =>
    match s.rxFifo with
    | [] => none
    | item :: rest => some { s with rxFifo := rest, worker := .process item }
  | .process item =>
    some { s with events := s.events ++ [processItem opHandlers mallocs transport item], worker := .lock }

inductive Action where
  | receive (data : List UInt8) (memory : Bool)
  | timeout
  | work (mallocs : Stream' Bool) (transport : Stream' Int)

def step (s : State) : Action → Option State
  | .receive data memory => some (greybusRxHandler opHandlers s data memory)
  | .timeout => some (gbOperationTimeout s)
  | .work mallocs transport => gbPendingMessageWorker opHandlers s mallocs transport

end Handlers

end Phabos.Greybus.Dispatch
