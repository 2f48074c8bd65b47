import Phabos.Construction.Greybus.Request
import Phabos.Construction.Kernel.Mcache

/-
This file embeds `greybus_rx_handler` and `gb_tape_replay` of drivers/greybus/greybus-core.c.
-/

namespace Phabos.Greybus
open Library

def GREYBUS_MTU : Nat := 2048

structure GbDriver where
  opHandlers : Option (List GbOperationHandler)

/-- The cport map gives the driver of each registered cport. -/
abbrev CportMap := Nat → Option GbDriver

/-- A message arrives on a cport. -/
structure Message where
  cport : Nat
  data : List UInt8

/-- `greybus_rx_handler` drops a message without a driver for it or without consistent sizes. -/
def rxAccepts (cportMap : CportMap) (message : Message) : Bool :=
  match cportMap message.cport with
  | none => false
  | some driver =>
    driver.opHandlers.isSome && decide (hdrSize ≤ message.data.length) &&
      decide (le16 message.data 0 ≤ message.data.length) && decide (hdrSize ≤ le16 message.data 0)

/-- The type byte of a header. -/
def hdrType (data : List UInt8) : BitVec 8 := BitVec.ofNat 8 (data.getD 4 0).toNat

/-- The handler has a fast handler, which runs at once and keeps nothing. -/
def takesFastPath (cportMap : CportMap) (message : Message) : Bool :=
  ((cportMap message.cport).bind fun driver =>
    findOperationHandler driver.opHandlers (hdrType message.data)).any
      GbOperationHandler.hasFastHandler

/-- `sizeof(struct gb_tape_record_header)` -/
def recordHeaderSize : Nat := 4

/-- A record is a header of two 16-bit fields, the size and the cport, and then the message. -/
def gbTapeRecord (message : Message) : List UInt8 :=
  le16Bytes message.data.length ++ le16Bytes message.cport ++ message.data

/-- A tape that is recording gets a record of every message that is accepted. -/
def recordMessage (cportMap : CportMap) (tape : List UInt8) (message : Message) : List UInt8 :=
  if rxAccepts cportMap message then tape ++ gbTapeRecord message else tape

/-- A replay hands messages over, may put more bytes into its buffer than fit, and returns a value. -/
structure Replay where
  handed : List Message
  overrun : Bool
  retval : Int

/-- This is the loop of `gb_tape_replay`; a read returns the bytes that are left, up to the count. -/
def gbTapeReplayLoop : Nat → List UInt8 → Option Replay
  | 0, _ => none
  | fuel + 1, tape =>
    let hdr := tape.take recordHeaderSize
    let tape := tape.drop recordHeaderSize
    if hdr.length = 0 then some ⟨[], false, 0⟩
    else if hdr.length ≠ recordHeaderSize then some ⟨[], false, - EIO⟩
    else
      let buffer := tape.take (le16 hdr 0)
      let overrun := decide (GREYBUS_MTU < buffer.length)
      if le16 hdr 0 ≠ buffer.length then some ⟨[], overrun, - EIO⟩
      else (gbTapeReplayLoop fuel (tape.drop (le16 hdr 0))).map fun rest =>
        ⟨⟨le16 hdr 2, buffer⟩ :: rest.handed, overrun || rest.overrun, rest.retval⟩

def gbTapeReplay (tape : List UInt8) : Option Replay := gbTapeReplayLoop (tape.length + 1) tape

end Phabos.Greybus

/-
This part embeds the way of the receive buffers through drivers/greybus/greybus-core.c: the two slab caches, the
buffers that drivers/unipro/unipro-tsb-es2.c and arch/arm/mach-tsb/apba-usb-unipro.c receive into, and the buffer of
a replay.
-/

namespace Phabos.RxBuffer
open Library ByteMemory Greybus

def CPORT_BUF_SIZE : ℕ := 1024

def MM_DMA : ℕ := 1

/-- What an area of memory is for: a slab of `buffer_slab`, the first buffer of a cport, a URB, or a replay -/
inductive Purpose where
  | slab
  | cport
  | urb
  | replay
  deriving DecidableEq, Repr

/-- The call of `page_alloc` for a URB has its arguments the other way round, so that its order is `MM_DMA`. -/
def Purpose.bytes : Purpose → ℕ
  | .slab => Slab.numObjects * GREYBUS_MTU
  | .cport => GREYBUS_MTU
  | .urb => 2 ^ MM_DMA * Slab.PAGE_SIZE
  | .replay => GREYBUS_MTU

/-- The areas that the allocators have given out and not got back, and the cache of request buffers -/
structure Store where
  areas : List (ℕ × Purpose)
  bufferSlab : Slab.Client

/-- What `page_alloc` and `kzalloc` return to an `mcache_alloc` that needs a new slab -/
abbrev Answer := Option ℕ × Option ℕ

/-- The two areas do not overlap. -/
def Clear (one other : ℕ × Purpose) : Prop :=
  one.1 + one.2.bytes ≤ other.1 ∨ other.1 + other.2.bytes ≤ one.1

instance (one other : ℕ × Purpose) : Decidable (Clear one other) := inferInstanceAs (Decidable (_ ∨ _))

/-- The allocators give out memory that nobody has. -/
def Store.reserve (store : Store) (address : ℕ) (purpose : Purpose) : Option Store :=
  if 0 < address ∧ ∀ area ∈ store.areas, Clear (address, purpose) area then
    some { store with areas := (address, purpose) :: store.areas }
  else none

/-- The pages of a new slab of `buffer_slab` -/
def Store.grow (store : Store) (answer : Answer) : Option Store :=
  if store.bufferSlab.cache.partialSlabs = [] ∧ store.bufferSlab.cache.emptySlabs = [] then
    answer.1.bind fun page => store.reserve page .slab
  else some store

/-- `mcache_alloc(buffer_slab)` when it succeeds -/
def Store.alloc (store : Store) (answer : Answer) : Option (ℕ × Store) :=
  (store.grow answer).bind fun store =>
    (Slab.step store.bufferSlab (.alloc answer.1 answer.2)).bind fun bufferSlab =>
      (Slab.mcacheAlloc store.bufferSlab.cache answer.1 answer.2).1.map fun buffer =>
        (buffer, { store with bufferSlab := bufferSlab })

/-- `mcache_free(buffer_slab)` -/
def Store.free (store : Store) (ptr : ℕ) : Option Store :=
  (Slab.step store.bufferSlab (.free ptr)).map fun bufferSlab => { store with bufferSlab := bufferSlab }

/-- `operation_ctor`, for one new object of `op_slab` after the other -/
def operationCtors (store : Store) (requestBuffer : ℕ → ℕ) :
    List ℕ → (ℕ → Answer) → Option (Store × (ℕ → ℕ))
  | [], _ => some (store, requestBuffer)
  | op :: ops, answers =>
    (store.alloc (answers 0)).bind fun (buffer, store) =>
      operationCtors store (Function.update requestBuffer op buffer) ops fun i => answers (i + 1)

/-- The UniPro device of the bus: only the first one has a `switch_buffer`. -/
inductive Transport where
  | tsb
  | apba
  deriving DecidableEq, Repr

/-- The size of `struct gb_operation` depends on the configuration. -/
structure Config where
  cportMap : CportMap
  transport : Transport
  operationSize : ℕ
  positive : 0 < operationSize
  small : Slab.numObjects * operationSize < 2 ^ 32

/-- An operation in a queue or in the hands of a worker, with the message that was passed for it -/
structure Received where
  cport : ℕ
  op : ℕ
  message : List UInt8
  deriving DecidableEq, Repr

/-- `received` are the queues of all cports, `working` are the operations of the workers, and `held` are those that
something else refers to: a request that has this response, or a driver that sends it. -/
structure Machine where
  memory : Memory
  store : Store
  opSlab : Slab.Client
  requestBuffer : ℕ → ℕ
  installed : ℕ → Option ℕ
  received : List Received
  working : List Received
  held : List ℕ
  halted : Bool

/-- The bus after `gb_probe`, with the addresses of its two caches -/
def Machine.probed (c : Config) (opSlab bufferSlab : ℕ) : Machine where
  memory := fun _ => 0
  store := ⟨[], .create ⟨bufferSlab, GREYBUS_MTU, false, false, [], [], []⟩⟩
  opSlab := .create ⟨opSlab, c.operationSize, true, false, [], [], []⟩
  requestBuffer := fun _ => 0
  installed := fun _ => none
  received := []
  working := []
  held := []
  halted := false

/-- What `gb_operation_create` writes into the request buffer -/
def requestHeader (type : UInt8) (reqSize : ℕ) : List UInt8 :=
  le16Bytes (reqSize + hdrSize) ++ [0, 0, type, 0, 0, 0] ++ List.replicate reqSize 0

/-- `gb_operation_create` when its allocations succeed -/
def gbOperationCreate (s : Machine) (type : UInt8) (reqSize : ℕ) (answers : ℕ → Answer) : Option (ℕ × Machine) :=
  let made := Slab.mcacheAlloc s.opSlab.cache (answers 0).1 (answers 0).2
  (Slab.step s.opSlab (.alloc (answers 0).1 (answers 0).2)).bind fun opSlab =>
    made.1.bind fun op =>
      (operationCtors s.store s.requestBuffer (Slab.constructed made.2.2) fun i => answers (i + 1)).map
        fun (store, requestBuffer) =>
          (op, { s with
            store := store
            opSlab := opSlab
            requestBuffer := requestBuffer
            memory := write s.memory (requestBuffer op) (requestHeader type reqSize) })

/-- Whether `greybus_rx_handler` makes an operation for a message -/
def queues (cportMap : CportMap) (message : Message) : Bool :=
  rxAccepts cportMap message && !takesFastPath cportMap message

/-- The call of a null pointer has no outcome. -/
def uniproSwitchBuffer (c : Config) (s : Machine) (cport buffer : ℕ) : Option Machine :=
  match c.transport with
  | .tsb => some { s with installed := Function.update s.installed cport (some buffer) }
  | .apba => none

def greybusRxHandler (c : Config) (s : Machine) (cport data size : ℕ) (answers : ℕ → Answer) : Option Machine :=
  let message : Message := ⟨cport, read s.memory data size⟩
  if data = 0 ∨ queues c.cportMap message = false then some s
  else
    (gbOperationCreate s 0 (le16 message.data 0 - hdrSize) answers).bind fun (op, s) =>
      (s.store.free (s.requestBuffer op)).bind fun store =>
        (store.alloc (answers 6)).map fun (buffer, store) =>
          let s := { s with store := store, requestBuffer := Function.update s.requestBuffer op data }
          match uniproSwitchBuffer c s cport buffer with
          | none => { s with halted := true }
          | some s => { s with received := s.received ++ [⟨cport, op, message.data⟩] }

/-- `gb_operation_unref` of the last reference to an operation -/
def operationFree (s : Machine) (op : ℕ) : Option Machine :=
  (Slab.step s.opSlab (.free op)).map fun opSlab => { s with opSlab := opSlab }

/-- The worker of a cport takes an operation off its queue when it is done with the one before. -/
def workerTake (s : Machine) (cport : ℕ) : Option Machine :=
  if s.working.any (·.cport = cport) then none
  else (s.received.find? (·.cport = cport)).map fun entry =>
    { s with
      received := s.received.eraseP (·.cport = cport)
      working := s.working ++ [entry] }

/-- The worker's `gb_operation_destroy` leaves a response to the request that it belongs to. -/
def workerDestroy (s : Machine) (cport : ℕ) (attached : Bool) : Option Machine :=
  (s.working.find? (·.cport = cport)).bind fun entry =>
    let s := { s with working := s.working.eraseP (·.cport = cport) }
    if attached then some { s with held := s.held ++ [entry.op] } else operationFree s entry.op

inductive Step where
  | initCport (cport buffer : ℕ)
  | createUrb (buffer : ℕ)
  | irqRxEom (cport : ℕ) (bytes : List UInt8) (answers : ℕ → Answer)
  | apbaUniproRxCb (buffer : ℕ) (bytes : List UInt8) (listening : Bool) (answers : ℕ → Answer)
  | openTape (buffer : ℕ)
  | readTape (buffer cport size : ℕ) (bytes : List UInt8) (answers : ℕ → Answer)
  | closeTape (buffer : ℕ)
  | workerTake (cport : ℕ)
  | workerDestroy (cport : ℕ) (attached : Bool)
  | destroyHeld (op : ℕ)
  | createRequest (type : UInt8) (reqSize : ℕ) (answers : ℕ → Answer)
  | fillRequest (op : ℕ) (bytes : List UInt8)

/-- A transfer is no longer than the hardware or the URB allows, and the size of a record is a 16-bit field. -/
def Machine.next (c : Config) (s : Machine) : Step → Option Machine
  | .initCport cport buffer =>
    if c.transport = .tsb then
      (s.store.reserve buffer .cport).map fun store =>
        { s with store := store, installed := Function.update s.installed cport (some buffer) }
    else none
  | .createUrb buffer =>
    if c.transport = .apba then
      (s.store.reserve buffer .urb).map fun store => { s with store := store }
    else none
  | .irqRxEom cport bytes answers =>
    if c.transport = .tsb ∧ bytes.length ≤ CPORT_BUF_SIZE then
      (s.installed cport).bind fun data =>
        greybusRxHandler c { s with memory := write s.memory data bytes } cport data bytes.length answers
    else none
  | .apbaUniproRxCb buffer bytes listening answers =>
    if (buffer, .urb) ∈ s.store.areas ∧ bytes.length ≤ 4096 then
      let s := { s with memory := write s.memory buffer bytes }
      if bytes.length < hdrSize ∨ listening = false then some s
      else greybusRxHandler c s (le16 (read s.memory buffer bytes.length) 6) buffer bytes.length answers
    else none
  | .openTape buffer => (s.store.reserve buffer .replay).map fun store => { s with store := store }
  | .readTape buffer cport size bytes answers =>
    if (buffer, .replay) ∈ s.store.areas ∧ size < 2 ^ 16 ∧ cport < 2 ^ 16 ∧ bytes.length ≤ size then
      let s := { s with memory := write s.memory buffer bytes }
      if size = bytes.length then greybusRxHandler c s cport buffer size answers else some s
    else none
  | .closeTape buffer =>
    if (buffer, .replay) ∈ s.store.areas then
      some { s with store := { s.store with areas := s.store.areas.erase (buffer, .replay) } }
    else none
  | .workerTake cport => RxBuffer.workerTake s cport
  | .workerDestroy cport attached => RxBuffer.workerDestroy s cport attached
  | .destroyHeld op =>
    if op ∈ s.held then operationFree { s with held := s.held.erase op } op else none
  | .createRequest type reqSize answers =>
    (gbOperationCreate s type reqSize answers).map fun (op, s) => { s with held := s.held ++ [op] }
  | .fillRequest op bytes =>
    if op ∈ s.held then some { s with memory := write s.memory (s.requestBuffer op) bytes } else none

/-- Nothing runs any more after the call of a null pointer. -/
def step (c : Config) (s : Machine) (action : Step) : Option Machine :=
  if s.halted then none else s.next c action

/-- What has a buffer: a live operation, a cport that receives into it, or a URB -/
inductive Holder where
  | operation (op : ℕ)
  | cport (cport : ℕ)
  | urb (buffer : ℕ)

def Machine.buffer (s : Machine) : Holder → Option ℕ
  | .operation op => if op ∈ s.opSlab.live then some (s.requestBuffer op) else none
  | .cport cport => s.installed cport
  | .urb buffer => if (buffer, Purpose.urb) ∈ s.store.areas then some buffer else none

end Phabos.RxBuffer
