import Phabos.Construction.Greybus.Receive

/-
This file embeds the way of a message from `irq_rx_eom` of drivers/unipro/unipro-tsb-es2.c through `greybus_rx_handler`
of drivers/greybus/greybus-core.c when allocations may fail. The hardware pauses a cport at the end of a message. A cache
gives out what is not in use, a null pointer, or a place without memory: `page_alloc` returns one when no pages are left,
and kernel/mcache.c makes a slab of it.
-/

namespace Phabos.RxRearm
open Greybus RxBuffer Function

deriving instance DecidableEq for Holder

/-- What `mcache_alloc(buffer_slab)` and `gb_get_buffer` return -/
inductive Pointer where
  | null
  | buffer (address : ℕ)
  | stray (address : ℕ)
  deriving DecidableEq, Repr

/-- The pointer is to memory. -/
def Pointer.valid : Pointer → Bool
  | .buffer _ => true
  | .null | .stray _ => false

/-- What `mcache_alloc(op_slab)` returns. A new slab comes with what its constructors get from `mcache_alloc(buffer_slab)`. -/
inductive Object where
  | null
  | free (op : ℕ)
  | slab (op : ℕ) (requestBuffer : Pointer) (others : List (ℕ × Pointer))
  | stray

/-- The objects of `buffer_slab` and the pages of `gb_get_buffer` that are in use, the objects of `op_slab` that were
constructed and those that are in use, and the pointer of each holder. A write to a place without memory makes `lost` true. -/
structure Pool where
  objects : List ℕ
  pages : List ℕ
  built : List ℕ
  live : List ℕ
  pointer : Holder → Pointer
  lost : Bool

section Pool
variable (pool : Pool)

/-- `mcache_alloc(buffer_slab)` -/
def Pool.allocBuffer : Pointer → Option Pool
  | .buffer address =>
    if address ∈ pool.objects ++ pool.pages then none else some { pool with objects := address :: pool.objects }
  | .null | .stray _ => some pool

/-- `mcache_free(buffer_slab)`, which finds no slab for a page -/
def Pool.freeBuffer : Pointer → Pool
  | .buffer address => { pool with objects := pool.objects.erase address }
  | .null | .stray _ => pool

/-- A pointer that is written -/
def Pool.set (holder : Holder) (pointer : Pointer) : Pool := { pool with pointer := update pool.pointer holder pointer }

/-- `operation_ctor`, for one new object of `op_slab` after the other -/
def operationCtors (pool : Pool) : List (ℕ × Pointer) → Option Pool
  | [] => some pool
  | (op, requestBuffer) :: others =>
    if op ∈ pool.built then none
    else (pool.allocBuffer requestBuffer).bind fun pool =>
      operationCtors ({ pool with built := op :: pool.built }.set (.operation op) requestBuffer) others

/-- `mcache_alloc(op_slab)`. A constructor writes to its object. -/
def Pool.allocOperation : Object → Option (Option ℕ × Pool)
  | .null => some (none, pool)
  | .free op =>
    if op ∈ pool.built ∧ op ∉ pool.live then some (some op, { pool with live := op :: pool.live }) else none
  | .slab op requestBuffer others =>
    if others.length + 1 = Slab.numObjects then
      (operationCtors pool ((op, requestBuffer) :: others)).map fun pool =>
        (some op, { pool with live := op :: pool.live })
    else none
  | .stray => some (none, { pool with lost := true })

/-- `gb_operation_create`, which writes to the request buffer -/
def gbOperationCreate (object : Object) : Option (Option ℕ × Pool) :=
  (pool.allocOperation object).map fun
    | (none, pool) => (none, pool)
    | (some op, pool) =>
      if (pool.pointer (.operation op)).valid then (some op, pool) else (none, { pool with lost := true })

end Pool

/-- An interrupt that was handled, with the calls of `tsb_unipro_unpause_rx`: the cport and what its address register
has then -/
structure Interrupt where
  cport : ℕ
  unpauses : List (ℕ × Pointer)
  deriving DecidableEq, Repr

/-- `unpauses` are those of the interrupt that is being handled. -/
structure Machine where
  pool : Pool
  connected : ℕ → Bool
  paused : ℕ → Bool
  unpauses : List (ℕ × Pointer)
  interrupts : List Interrupt

/-- The bus after `gb_probe` -/
def gbProbe : Machine := ⟨⟨[], [], [], [], fun _ => .null, false⟩, fun _ => false, fun _ => false, [], []⟩

section Machine
variable (s : Machine) (cport : ℕ)

/-- `tsb_unipro_switch_buffer` -/
def Machine.switchBuffer (pool : Pool) (buffer : Pointer) : Machine := { s with pool := pool.set (.cport cport) buffer }

/-- `tsb_unipro_unpause_rx` -/
def Machine.unpauseRx : Machine :=
  if s.connected cport then
    { s with
      paused := update s.paused cport false
      unpauses := s.unpauses ++ [(cport, s.pool.pointer (.cport cport))] }
  else s

/-- `greybus_rx_handler`, with what the two caches return -/
def greybusRxHandler (cportMap : CportMap) (message : List UInt8) (object : Object) (next : Pointer) : Option Machine :=
  let data := s.pool.pointer (.cport cport)
  if data = .null ∨ queues cportMap ⟨cport, message⟩ = false then some s
  else
    (gbOperationCreate s.pool object).bind fun
      | (none, pool) => some { s with pool := pool }
      | (some op, pool) =>
        let pool := (pool.freeBuffer (pool.pointer (.operation op))).set (.operation op) data
        (pool.allocBuffer next).map fun pool => (s.switchBuffer cport pool next).unpauseRx cport

/-- `irq_rx_eom` -/
def irqRxEom (cportMap : CportMap) (message : List UInt8) (object : Object) (next : Pointer) : Option Machine :=
  (greybusRxHandler { s with paused := update s.paused cport true, unpauses := [] } cport cportMap message object
    next).map fun s => { s with interrupts := s.interrupts ++ [⟨cport, s.unpauses⟩] }

/-- `tsb_unipro_init_cport`, with what `gb_get_buffer` returns -/
def tsbUniproInitCport : Pointer → Option Machine
  | .null => some s
  | .buffer address =>
    if address ∈ s.pool.objects ++ s.pool.pages then none
    else some (s.switchBuffer cport { s.pool with pages := address :: s.pool.pages } (.buffer address))
  | .stray address => some (s.switchBuffer cport s.pool (.stray address))

end Machine

inductive Step where
  | initCport (cport : ℕ) (page : Pointer)
  /-- `configure_connected_cport` -/
  | connect (cport : ℕ)
  | irqRxEom (cport : ℕ) (message : List UInt8) (object : Object) (next : Pointer)
  | createRequest (object : Object)
  | destroy (op : ℕ)

def Machine.next (cportMap : CportMap) (s : Machine) : Step → Option Machine
  | .initCport cport page => if s.connected cport then none else tsbUniproInitCport s cport page
  | .connect cport =>
    if s.connected cport ∨ s.pool.pointer (.cport cport) = .null then none
    else some { s with
      connected := update s.connected cport true
      paused := update s.paused cport false }
  | .irqRxEom cport message object next =>
    if s.connected cport ∧ s.paused cport = false ∧ message.length ≤ CPORT_BUF_SIZE then
      RxRearm.irqRxEom s cport cportMap message object next
    else none
  | .createRequest object => (gbOperationCreate s.pool object).map fun created => { s with pool := created.2 }
  | .destroy op =>
    if op ∈ s.pool.live then some { s with pool := { s.pool with live := s.pool.live.erase op } } else none

/-- Nothing runs any more after a write to a place without memory. -/
def step (cportMap : CportMap) (s : Machine) (action : Step) : Option Machine :=
  if s.pool.lost then none else s.next cportMap action

/-- A cport is connected with a buffer, and a message that arrives is queued for the worker, with an operation and a buffer
for the next message. -/
def Served (cportMap : CportMap) (s : Machine) : Step → Prop
  | .connect cport => (s.pool.pointer (.cport cport)).valid = true
  | .irqRxEom cport message object next =>
    queues cportMap ⟨cport, message⟩ = true ∧ next.valid = true ∧
      (gbOperationCreate s.pool object).any (fun created => created.1.isSome) = true
  | _ => True

instance (cportMap : CportMap) (s : Machine) : (action : Step) → Decidable (Served cportMap s action)
  | .connect _ => inferInstanceAs (Decidable (_ = _))
  | .irqRxEom .. => inferInstanceAs (Decidable (_ ∧ _))
  | .initCport .. | .createRequest _ | .destroy _ => isTrue trivial

/-- Each interrupt was followed by one unpause of its cport with a buffer in its register, and a connected cport is not
paused and has a buffer that nobody else has. -/
structure Rearmed (s : Machine) : Prop where
  once : ∀ interrupt ∈ s.interrupts, ∃ address, interrupt.unpauses = [(interrupt.cport, .buffer address)]
  flowing : ∀ cport, s.connected cport = true → s.paused cport = false
  owned : ∀ cport, s.connected cport = true → ∃ address, s.pool.pointer (.cport cport) = .buffer address ∧
    address ∈ s.pool.objects ++ s.pool.pages ∧ ∀ holder, s.pool.pointer holder = .buffer address → holder = .cport cport

end Phabos.RxRearm
