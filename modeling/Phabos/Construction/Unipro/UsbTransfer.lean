import Phabos.Library.ByteMemory

/-
This file embeds the sending side of drivers/greybus/greybus-core.c over arch/arm/mach-tsb/apba-usb-unipro.c. A URB is the
pointer to its buffer and a length, which the controller reads at any time before it completes the URB. An operation has
the request buffer that its constructor gave it: over this transport none is made for a received message. A write has no
effect on another buffer, so that it stays in its own where the steps are orderly.
-/

namespace Phabos.UsbTransfer

open Library Function

/-- `sizeof(struct gb_operation_hdr)` -/
def hdrSize : Nat := 8

/-- `GREYBUS_MTU`, the size of a buffer of `buffer_slab` -/
def greybusMtu : Nat := 2048

/-- `sizeof(struct mm_buffer)`, which `malloc` adds to a size in 32 bits -/
def mmBufferSize : Nat := 16

def typeResponseFlag : UInt8 := 0x80

def gbOpNoMemory : UInt8 := 0x03

/-- A request buffer, which stays with its object of `op_slab`, memory of `malloc`, and `oom_hdr` -/
inductive Buffer
  | request (op : Nat)
  | heap (address : Nat)
  | oom
  deriving DecidableEq, Repr

/-- `struct gb_operation`. It is in its slab while it has no reference. -/
structure Operation where
  refCount : Nat
  responseBuffer : Option Nat
  hasResponded : Bool
  cport : Nat
  /-- The operation is on the `tx_fifo` of its CPort. -/
  waiting : Bool
  deriving DecidableEq, Repr

/-- `struct urb`, with the message that `apba_unipro_send` was to send and what the controller has read -/
structure Urb where
  buffer : Buffer
  length : Nat
  message : List UInt8
  read : Option (List UInt8)
  completed : Bool
  deriving DecidableEq, Repr

/-- Where a task is in `gb_operation_send_request` or `gb_operation_send_response` -/
inductive Place
  /-- before `unipro_send` -/
  | requesting (op : Nat) (needResponse : Bool)
  | responding (op address : Nat) (allocated : Bool)
  /-- in `apba_unipro_send`, before `urb_submit` -/
  | submittingRequest (op : Nat) (needResponse : Bool) (message : List UInt8)
  | submittingResponse (op address : Nat) (allocated : Bool) (message : List UInt8)
  /-- The request has failed and is on the `tx_fifo`. -/
  | failed (op : Nat)
  | responded (op : Nat)
  | done
  deriving DecidableEq, Repr

/-- The memory, the operations, the response buffers that are allocated, the calls in progress and the URBs -/
structure Machine where
  content : Buffer → Nat → UInt8
  operations : Nat → Operation
  allocated : Nat → Bool
  requestId : Nat
  calls : List Place
  urbs : List Urb

/-- `oom_hdr`, and the caches before the first operation -/
def gbProbe : Machine where
  content
    | .oom, offset => (le16Bytes hdrSize ++ [0, 0, typeResponseFlag, gbOpNoMemory]).getD offset 0
    | _, _ => 0
  operations := fun _ => ⟨0, none, false, 0, false⟩
  allocated := fun _ => false
  requestId := 0
  calls := []
  urbs := []

section Parts
variable (m : Machine)

def Machine.write (buffer : Buffer) (offset : Nat) (byte : UInt8) : Machine :=
  { m with content := update m.content buffer (update (m.content buffer) offset byte) }

/-- The first bytes of a buffer become those of a list, with zeros behind it. -/
def Machine.fill (buffer : Buffer) (length : Nat) (bytes : List UInt8) : Machine :=
  { m with
    content := update m.content buffer fun offset =>
      if offset < length then bytes.getD offset 0 else m.content buffer offset }

def Machine.bytes (buffer : Buffer) (length : Nat) : List UInt8 := (List.range length).map (m.content buffer)

/-- `le16_to_cpu(hdr->size)` -/
def Machine.size (buffer : Buffer) : Nat := (m.content buffer 0).toNat + 256 * (m.content buffer 1).toNat

def Machine.set (op : Nat) (operation : Operation) : Machine :=
  { m with operations := update m.operations op operation }

def Machine.begin (place : Place) : Machine := { m with calls := m.calls ++ [place] }

def Machine.move (index : Nat) (place : Place) : Machine := { m with calls := m.calls.set index place }

end Parts

section Core
variable (m : Machine) (op : Nat)

/-- `gb_operation_create` -/
def Machine.create (cport : Nat) (type : UInt8) (reqSize : Nat) : Machine :=
  (m.fill (.request op) (reqSize + hdrSize) (le16Bytes (reqSize + hdrSize) ++ [0, 0, type])).set op
    { m.operations op with refCount := 1, hasResponded := false, cport := cport }

/-- `gb_operation_alloc_response` when `malloc` returns this address -/
def Machine.allocResponse (size address : Nat) : Machine :=
  let request := m.content (.request op)
  let header := le16Bytes (size + hdrSize) ++ [request 2, request 3, typeResponseFlag ||| request 4]
  ({ m with allocated := update m.allocated address true }.fill (.heap address) (size + hdrSize) header).set op
    { m.operations op with responseBuffer := some address }

/-- `free(operation->response_buffer)`, and its pointer is cleared. -/
def Machine.freeResponse : Machine :=
  match (m.operations op).responseBuffer with
  | none => m
  | some address =>
    { m with allocated := update m.allocated address false }.set op { m.operations op with responseBuffer := none }

def Machine.ref : Machine := m.set op { m.operations op with refCount := (m.operations op).refCount + 1 }

/-- `gb_operation_unref` -/
def Machine.unref : Machine :=
  if (m.operations op).refCount = 0 then m
  else if (m.operations op).refCount = 1 then
    let m := m.freeResponse op
    m.set op { m.operations op with refCount := 0 }
  else m.set op { m.operations op with refCount := (m.operations op).refCount - 1 }

/-- The id that `gb_operation_send_request` draws, without 0, and the counter -/
def Machine.drawId : Nat × Nat :=
  if (m.requestId + 1) % 65536 = 0 then (m.requestId + 2, m.requestId + 2) else (m.requestId + 1, m.requestId + 1)

/-- `gb_operation_send_request` up to `unipro_send` -/
def Machine.sendRequest (needResponse : Bool) : Machine :=
  if needResponse then
    let (id, requestId) := m.drawId
    let m := ({ m with requestId := requestId }.write (.request op) 2 (UInt8.ofNat id)).write (.request op) 3
      (UInt8.ofNat (id / 256))
    let m := m.ref op
    (m.set op { m.operations op with waiting := true }).begin (.requesting op true)
  else ((m.write (.request op) 2 0).write (.request op) 3 0).begin (.requesting op false)

/-- `gb_operation_send_response` with a response buffer, up to `unipro_send` -/
def Machine.sendResponse (result : UInt8) (address : Nat) (allocated : Bool) : Machine :=
  (m.write (.heap address) 5 result).begin (.responding op address allocated)

/-- `hdr->pad[0] = cport->id & 0xff` -/
def Machine.writePad (buffer : Buffer) : Machine :=
  m.write buffer 6 (UInt8.ofNat ((m.operations op).cport &&& 0xff))

/-- `urb_submit` when it succeeds -/
def Machine.submit (buffer : Buffer) (message : List UInt8) : Machine :=
  { m with urbs := m.urbs ++ [⟨buffer, message.length, message, none, false⟩] }

/-- `gb_operation_send_oom_response`, which disables the interrupts -/
def Machine.sendOomResponse (submitted : Bool) : Machine :=
  let request := m.content (.request op)
  let m := ((m.write .oom 2 (request 2)).write .oom 3 (request 3)).write .oom 4 (typeResponseFlag ||| request 4)
  let m := m.writePad op .oom
  if submitted then m.submit .oom (m.bytes .oom hdrSize) else m

/-- The next step of a call. `submitted` says whether the URB is allocated and accepted. -/
def Machine.advance (index : Nat) (submitted : Bool) : Place → Option Machine
  | .requesting op needResponse =>
    let m := m.writePad op (.request op)
    some (m.move index (.submittingRequest op needResponse (m.bytes (.request op) (m.size (.request op)))))
  | .responding op address allocated =>
    let m := m.writePad op (.heap address)
    some (m.move index (.submittingResponse op address allocated (m.bytes (.heap address) (m.size (.heap address)))))
  | .submittingRequest op needResponse message =>
    if submitted then some ((m.move index .done).submit (.request op) message)
    else if needResponse then some (m.move index (.failed op))
    else some (m.move index .done)
  | .submittingResponse op address allocated message =>
    if submitted then some ((m.move index (.responded op)).submit (.heap address) message)
    else if allocated then some ((m.move index .done).freeResponse op)
    else some (m.move index .done)
  | .failed op => some (((m.set op { m.operations op with waiting := false }).unref op).move index .done)
  | .responded op => some ((m.set op { m.operations op with hasResponded := true }).move index .done)
  | .done => none

end Core

inductive Action
  | create (op cport : Nat) (type : UInt8) (reqSize : Nat)
  /-- A task writes a byte of the payload of a request or of a response. -/
  | write (op : Nat) (response : Bool) (offset : Nat) (byte : UInt8)
  | allocResponse (op size address : Nat)
  | sendRequest (op : Nat) (needResponse : Bool)
  /-- with what `malloc` returns if it is called, and whether the URB of an `oom_hdr` is accepted -/
  | sendResponse (op : Nat) (result : UInt8) (malloc : Option Nat) (submitted : Bool)
  | ref (op : Nat)
  /-- `gb_operation_destroy` -/
  | destroy (op : Nat)
  /-- `gb_clean_timedout_operation` takes the operation off the `tx_fifo`. -/
  | timeout (op : Nat)
  | advance (index : Nat) (submitted : Bool)
  /-- The controller reads the buffer of a URB. -/
  | read (index : Nat)
  /-- The controller calls `apba_unipro_send_cb`. -/
  | complete (index : Nat)
  deriving DecidableEq, Repr

/-- The buffer of the request or of the response of an operation -/
def Machine.buffer (m : Machine) (op : Nat) (response : Bool) : Option Buffer :=
  if response then (m.operations op).responseBuffer.map .heap else some (.request op)

def step (m : Machine) : Action → Option Machine
  | .create op cport type reqSize =>
    if (m.operations op).refCount = 0 then some (m.create op cport type reqSize) else none
  | .write op response offset byte =>
    if (m.operations op).refCount = 0 then none
    else (m.buffer op response).map fun buffer => m.write buffer (hdrSize + offset) byte
  | .allocResponse op size address =>
    if (m.operations op).refCount = 0 ∨ m.allocated address then none else some (m.allocResponse op size address)
  | .sendRequest op needResponse =>
    if (m.operations op).refCount = 0 then none else some (m.sendRequest op needResponse)
  | .sendResponse op result malloc submitted =>
    if (m.operations op).refCount = 0 then none
    else if (m.operations op).hasResponded then some m
    else
      match (m.operations op).responseBuffer, malloc with
      | some address, _ => some (m.sendResponse op result address false)
      | none, some address =>
        if m.allocated address then none
        else some ((m.allocResponse op 0 address).sendResponse op result address true)
      | none, none => some (m.sendOomResponse op submitted)
  | .ref op => if (m.operations op).refCount = 0 then none else some (m.ref op)
  | .destroy op => some (m.unref op)
  | .timeout op =>
    if (m.operations op).waiting then some ((m.set op { m.operations op with waiting := false }).unref op) else none
  | .advance index submitted => (m.calls[index]?).bind (m.advance index submitted)
  | .read index =>
    (m.urbs[index]?).bind fun urb =>
      if urb.completed then none
      else some { m with urbs := m.urbs.set index { urb with read := some (m.bytes urb.buffer urb.length) } }
  | .complete index =>
    (m.urbs[index]?).bind fun urb =>
      if urb.completed ∨ urb.read = none then none
      else some { m with urbs := m.urbs.set index { urb with completed := true } }

/-- The message that a call is sending -/
def Place.buffer : Place → Option Buffer
  | .requesting op _ | .submittingRequest op _ _ => some (.request op)
  | .responding _ address _ | .submittingResponse _ address _ _ => some (.heap address)
  | .failed _ | .responded _ | .done => none

/-- What `apba_unipro_send` was called with, before its URB is submitted -/
def Place.message : Place → Option (List UInt8)
  | .submittingRequest _ _ message | .submittingResponse _ _ _ message => some message
  | _ => none

def Place.sends (buffer : Buffer) (place : Place) : Bool := place.buffer = some buffer

/-- The URB of the buffer is queued. -/
def Urb.queued (buffer : Buffer) (urb : Urb) : Bool := urb.buffer = buffer ∧ urb.completed = false

/-- A call sends the message in the buffer, or a URB of the buffer is queued. -/
def Machine.Sending (m : Machine) (buffer : Buffer) : Prop :=
  (∃ place ∈ m.calls, place.sends buffer) ∨ ∃ urb ∈ m.urbs, urb.queued buffer

/-- `apba_unipro_send` was called with the buffer, and its URB has not been completed. -/
def Machine.InFlight (m : Machine) (buffer : Buffer) : Prop :=
  (∃ place ∈ m.calls, place.sends buffer ∧ place.message ≠ none) ∨ ∃ urb ∈ m.urbs, urb.queued buffer

instance (m : Machine) (buffer : Buffer) : Decidable (m.Sending buffer) := inferInstanceAs (Decidable (_ ∨ _))

instance (m : Machine) (buffer : Buffer) : Decidable (m.InFlight buffer) := inferInstanceAs (Decidable (_ ∨ _))

/-- The last reference to an operation is not dropped while its request or its response is being sent. -/
def Machine.MayUnref (m : Machine) (op : Nat) : Prop :=
  (m.operations op).refCount = 1 → ∀ response, ∀ buffer ∈ m.buffer op response, ¬ m.Sending buffer

instance (m : Machine) (op : Nat) : Decidable (m.MayUnref op) := inferInstanceAs (Decidable (_ → _))

/-- No last reference is dropped, no send is started, no response is allocated and no payload is written, where that would
take or change a message that is being sent; and no `oom_hdr` is sent while it is queued. A request has room in its buffer,
the size of a response does not wrap, and a payload is written inside its message. -/
def Orderly (m : Machine) : Action → Prop
  | .create _ _ _ reqSize => reqSize + hdrSize ≤ greybusMtu
  | .write op response offset _ =>
    ∀ buffer ∈ m.buffer op response, ¬ m.InFlight buffer ∧ hdrSize + offset < m.size buffer
  | .allocResponse op size _ =>
    (∀ buffer ∈ m.buffer op true, ¬ m.Sending buffer) ∧ size + hdrSize + mmBufferSize < 2 ^ 32
  | .sendRequest op _ => ¬ m.Sending (.request op)
  | .sendResponse op _ malloc _ =>
    match (m.operations op).responseBuffer, malloc with
    | some address, _ => ¬ m.Sending (.heap address)
    | none, some _ => True
    | none, none => ¬ m.Sending .oom
  | .destroy op => m.MayUnref op
  | .timeout op => m.MayUnref op
  | .advance index _ =>
    match m.calls[index]? with
    | some (.failed op) => m.MayUnref op
    | _ => True
  | _ => True

instance (m : Machine) (action : Action) : Decidable (Orderly m action) :=
  match action with
  | .create _ _ _ reqSize => inferInstanceAs (Decidable (reqSize + hdrSize ≤ greybusMtu))
  | .write op response offset _ => inferInstanceAs
      (Decidable (∀ buffer ∈ m.buffer op response, ¬ m.InFlight buffer ∧ hdrSize + offset < m.size buffer))
  | .allocResponse op size _ => inferInstanceAs
      (Decidable ((∀ buffer ∈ m.buffer op true, ¬ m.Sending buffer) ∧ size + hdrSize + mmBufferSize < 2 ^ 32))
  | .sendRequest op _ => inferInstanceAs (Decidable (¬ m.Sending (.request op)))
  | .sendResponse op _ malloc _ =>
    show Decidable (match (m.operations op).responseBuffer, malloc with
      | some address, _ => ¬ m.Sending (.heap address)
      | none, some _ => True
      | none, none => ¬ m.Sending .oom) from
    match (m.operations op).responseBuffer, malloc with
    | some address, _ => inferInstanceAs (Decidable (¬ m.Sending (.heap address)))
    | none, some _ => inferInstanceAs (Decidable True)
    | none, none => inferInstanceAs (Decidable (¬ m.Sending .oom))
  | .destroy op | .timeout op => inferInstanceAs (Decidable (m.MayUnref op))
  | .advance index _ =>
    show Decidable (match m.calls[index]? with
      | some (.failed op) => m.MayUnref op
      | _ => True) from
    match m.calls[index]? with
    | some (.failed op) => inferInstanceAs (Decidable (m.MayUnref op))
    | some (.requesting _ _) | some (.responding _ _ _) | some (.submittingRequest _ _ _)
    | some (.submittingResponse _ _ _ _) | some (.responded _) | some .done | none => inferInstanceAs (Decidable True)
  | .ref _ | .read _ | .complete _ => inferInstanceAs (Decidable True)

/-- The memory of a buffer is in use: the operation is not in its slab, the response is not freed. -/
def Machine.Live (m : Machine) : Buffer → Prop
  | .request op => 0 < (m.operations op).refCount
  | .heap address => m.allocated address = true
  | .oom => True

end Phabos.UsbTransfer
