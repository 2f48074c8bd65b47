import Phabos.Construction.Kernel.Mm

/-
This file embeds the allocation of rings in drivers/ara/lib_ring_buf.c. A chunk of the heap is known by its number, and a
pointer into it by the distance from its start. The callbacks leave the entries alone.
-/

namespace Phabos.RingBuffer

inductive RingBufOwner where
  | invalid
  | producer
  | consumer
  deriving DecidableEq, Repr

/-- `struct ring_buf`, without `priv` -/
structure RingBuf where
  next : Option ℕ
  owner : RingBufOwner
  headroom : Option ℕ
  data : Option ℕ
  tailroom : Option ℕ
  head : Option ℕ
  tail : Option ℕ
  deriving DecidableEq, Repr

def RingBuf.zero : RingBuf := ⟨none, .invalid, none, none, none, none, none⟩

/-- `sizeof(struct ring_buf)` -/
def sizeofRingBuf : BitVec 32 := 32

structure Chunk where
  size : BitVec 32
  rb : RingBuf
  deriving DecidableEq, Repr

inductive Event where
  | allocated (rb : ℕ)
  /-- `alloc_callback` has succeeded, or there is none. -/
  | accepted (rb : ℕ)
  | freeCallback (rb : ℕ)
  | freed (rb : ℕ)
  deriving DecidableEq, Repr

/-- The chunks that are allocated. An access to another one or behind the end of one makes `stray` true. -/
structure Heap where
  chunks : ℕ → Option Chunk
  count : ℕ
  fresh : ∀ number, count ≤ number → chunks number = none
  log : List Event
  stray : Bool

/-- `kmalloc` has no block of this size, whatever memory is left. -/
def kmallocRefuses (size : BitVec 32) : Bool :=
  decide (size = 0) ||
    decide (Mm.maxAddressableMemOrder < (Mm.sizeToOrder (size + BitVec.ofNat 32 Mm.bufferSize).toNat).toNat)

/-- What `kmalloc` gives of a size: it adds its header in 32 bits, and a sum that wraps gets a block with nothing behind the
header. -/
def kmallocRoom (size : BitVec 32) : BitVec 32 := if size.toNat + Mm.bufferSize < 2 ^ 32 then size else 0

section Heap
variable (heap : Heap)

def Heap.note (event : Event) : Heap := { heap with log := heap.log ++ [event] }

/-- `zalloc` zeroes as many bytes as it was asked for. -/
def Heap.zalloc (fails : Bool) (size : BitVec 32) : Option ℕ × Heap :=
  if fails || kmallocRefuses size then (none, heap)
  else
    (some heap.count,
      { chunks := Function.update heap.chunks heap.count (some ⟨kmallocRoom size, .zero⟩)
        count := heap.count + 1
        fresh := fun number later => by
          rw [Function.update_of_ne (by omega)]
          exact heap.fresh number (by omega)
        log := heap.log ++ [.allocated heap.count]
        stray := heap.stray || decide (kmallocRoom size ≠ size) })

/-- A write to an entry, which its chunk may have no room for -/
def Heap.write (rb : ℕ) (change : RingBuf → RingBuf) : Heap :=
  { heap with
    chunks := Function.update heap.chunks rb ((heap.chunks rb).map fun chunk => { chunk with rb := change chunk.rb })
    fresh := fun number later => by
      by_cases same : number = rb
      · rw [same, Function.update_self, heap.fresh rb (same ▸ later), Option.map_none]
      · rw [Function.update_of_ne same, heap.fresh number later]
    stray := heap.stray || !(heap.chunks rb).any fun chunk => decide (sizeofRingBuf ≤ chunk.size) }

/-- `ring_buf_free` -/
def Heap.ringBufFree (rb : ℕ) : Heap :=
  { heap with
    chunks := Function.update heap.chunks rb none
    fresh := fun number later => by
      by_cases same : number = rb
      · rw [same, Function.update_self]
      · rw [Function.update_of_ne same, heap.fresh number later]
    log := heap.log ++ [.freed rb]
    stray := heap.stray || (heap.chunks rb).isNone }

/-- The pointer that is read by `ring_buf_get_next` -/
def Heap.ringBufGetNext (rb : ℕ) : Option ℕ := (heap.chunks rb).bind fun chunk => chunk.rb.next

/-- A read of an entry -/
def Heap.read (rb : ℕ) : Heap := { heap with stray := heap.stray || (heap.chunks rb).isNone }

/-- A pointer that is NULL is followed. -/
def Heap.followNull : Heap := { heap with stray := true }

/-- `rb->next = next` -/
def Heap.setNext (rb next : Option ℕ) : Heap :=
  match rb with
  | none => heap.followNull
  | some rb => heap.write rb fun entry => { entry with next := next }

end Heap

/-- `ring_buf_reset` -/
def ringBufReset (rb : RingBuf) : RingBuf := { rb with head := rb.data, tail := rb.data }

/-- `ring_buf_init` -/
def ringBufInit (rb : RingBuf) (buf : ℕ) (headroom dataLen : BitVec 32) : RingBuf :=
  ringBufReset { rb with
    headroom := some buf
    data := some (buf + headroom.toNat)
    tailroom := some (buf + headroom.toNat + dataLen.toNat) }

/-- The sizes that a ring is allocated with -/
structure Sizes where
  entries : BitVec 32
  headroom : BitVec 32
  dataLen : BitVec 32
  tailroom : BitVec 32
  deriving DecidableEq, Repr

/-- The callbacks of a ring, and where the allocations and the callback fail -/
structure Surroundings where
  zallocFails : ℕ → Bool
  allocCallback : Option (ℕ → Int)
  freeCallback : Bool

section Alloc
variable (sizes : Sizes) (around : Surroundings)

def Sizes.bufLen : BitVec 32 := sizes.headroom + sizes.dataLen + sizes.tailroom

/-- What `ring_buf_alloc` makes of a zeroed entry -/
def Sizes.entry : RingBuf :=
  let rb := { RingBuf.zero with owner := .producer }
  if sizes.bufLen ≠ 0 then ringBufInit rb sizeofRingBuf.toNat sizes.headroom sizes.dataLen else rb

/-- `ring_buf_alloc` -/
def ringBufAlloc (fails : Bool) (heap : Heap) : Option ℕ × Heap :=
  match heap.zalloc fails (sizeofRingBuf + sizes.bufLen) with
  | (none, heap) => (none, heap)
  | (some rb, heap) => (some rb, heap.write rb fun _ => sizes.entry)

/-- `alloc_callback` returns an error in this turn. -/
def Surroundings.refuses (i : ℕ) : Bool :=
  match around.allocCallback with
  | none => false
  | some allocCallback => allocCallback i ≠ 0

/-- The variables of `ring_buf_alloc_ring` -/
structure Build where
  heap : Heap
  rb : Option ℕ
  prevRb : Option ℕ
  firstRb : Option ℕ

/-- An entry has been accepted and is linked to the one before it. -/
def Build.link (s : Build) (heap : Heap) (rb : ℕ) : Build :=
  let heap := heap.note (.accepted rb)
  match s.firstRb with
  | none => ⟨heap, some rb, some rb, some rb⟩
  | some _ => ⟨heap.setNext s.prevRb (some rb), some rb, some rb, s.firstRb⟩

/-- The first loop of `ring_buf_alloc_ring` over so many more entries, with `i` at its end -/
def allocEntries : ℕ → ℕ → Build → ℕ × Build
  | 0, i, s => (i, s)
  | remaining + 1, i, s =>
    match ringBufAlloc sizes (around.zallocFails i) s.heap with
    | (none, heap) => (i, { s with heap := heap, rb := none })
    | (some rb, heap) =>
      if around.refuses i then (i, { s with heap := heap.ringBufFree rb, rb := some rb })
      else allocEntries remaining (i + 1) (s.link heap rb)

/-- An entry is freed, with the callback before. -/
def freeEntry (freeCallback : Bool) (rb : ℕ) (heap : Heap) : Heap :=
  (if freeCallback then heap.note (.freeCallback rb) else heap).ringBufFree rb

/-- The second loop of `ring_buf_alloc_ring` -/
def freeEntries (freeCallback : Bool) : ℕ → Option ℕ → Heap → Heap
  | 0, _, heap => heap
  | i + 1, rb, heap =>
    match rb with
    | none => heap.followNull
    | some prevRb =>
      freeEntries freeCallback i (heap.ringBufGetNext prevRb) (freeEntry freeCallback prevRb (heap.read prevRb))

/-- `ring_buf_alloc_ring` -/
def ringBufAllocRing (heap : Heap) : Option ℕ × Heap :=
  if sizes.entries = 0 then (none, heap)
  else
    let (i, s) := allocEntries sizes around sizes.entries.toNat 0 ⟨heap, none, none, none⟩
    if i < sizes.entries.toNat then (none, freeEntries around.freeCallback i s.firstRb s.heap)
    else (s.firstRb, s.heap.setNext s.rb s.firstRb)

end Alloc

/-- The loop of `ring_buf_free_ring`, with a bound on its turns -/
def freeRingFrom (freeCallback : Bool) (firstRb : ℕ) : ℕ → Option ℕ → Heap → Option Heap
  | 0, _, _ => none
  | fuel + 1, rb, heap =>
    match rb with
    | none => some heap.followNull
    | some rb =>
      let nextRb := heap.ringBufGetNext rb
      let heap := freeEntry freeCallback rb (heap.read rb)
      if nextRb ≠ some firstRb then freeRingFrom freeCallback firstRb fuel nextRb heap else some heap

/-- `ring_buf_free_ring` -/
def ringBufFreeRing (freeCallback : Bool) (fuel : ℕ) (rb : Option ℕ) (heap : Heap) : Option Heap :=
  match rb with
  | none => some heap
  | some firstRb => freeRingFrom freeCallback firstRb fuel (some firstRb) heap

/-- The heap, and the entry that each client has come to in its ring -/
structure Clients where
  heap : Heap
  held : ℕ → Option ℕ

inductive Request where
  | allocRing (client : ℕ) (sizes : Sizes) (around : Surroundings)
  | getNext (client : ℕ)
  | freeRing (client : ℕ) (freeCallback : Bool)

/-- A request of a client. A ring has no more entries than chunks have been allocated. -/
def step (s : Clients) : Request → Option Clients
  | .allocRing client sizes around =>
    if s.held client = none then
      let (rb, heap) := ringBufAllocRing sizes around s.heap
      some ⟨heap, Function.update s.held client rb⟩
    else none
  | .getNext client =>
    (s.held client).map fun rb =>
      ⟨s.heap.read rb, Function.update s.held client (s.heap.ringBufGetNext rb)⟩
  | .freeRing client freeCallback =>
    (ringBufFreeRing freeCallback (s.heap.count + 1) (s.held client) s.heap).map fun heap =>
      ⟨heap, Function.update s.held client none⟩

end Phabos.RingBuffer
