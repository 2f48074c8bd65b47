import Phabos.Library.ByteMemory
import Phabos.Library.LinkedRing

/-
This file embeds the buddy allocator of kernel/mm.c.
-/

namespace Phabos.Mm

def maxAddressableMemOrder : Nat := 31

def ENOMEM : Int := 12

def EINVAL : Int := 22

def MM_DMA : BitVec 32 := 1

def MM_KERNEL : BitVec 32 := 2

structure MmRegion where
  start : Nat
  size : Nat
  flags : BitVec 32

/-- This is the header at the start of each block; a region pointer is a position in the region list. -/
structure MmBuffer where
  bucket : Nat
  region : Nat

/-- `sizeof(struct mm_buffer)` -/
def bufferSize : Nat := 16

/-- Buffers are known by their addresses, and address 0 is the null pointer. -/
structure Heap where
  mmBucket : Nat → List Nat
  mmRegionList : List MmRegion
  isInitialized : Bool
  buffer : Nat → MmBuffer
  total : BitVec 32
  used : BitVec 32

def Heap.initial : Heap := ⟨fun _ => [], [], false, fun _ => ⟨0, 0⟩, 0, 0⟩

def orderToSize (order : Nat) : BitVec 32 := 1#32 <<< order

/-- This is the loop of `count_bit_set` on a 32-bit value. -/
def countBitSet : Nat → Nat → Nat
  | 0, _ => 0
  | fuel + 1, val => if val = 0 then 0 else val % 2 + countBitSet fuel (val / 2)

/-- This is the loop of `size_to_order` on a 32-bit size. -/
def sizeToOrderLoop : Nat → Nat → Int → Nat → Int × Nat
  | 0, _, order, bitSetCount => (order, bitSetCount)
  | fuel + 1, size, order, bitSetCount =>
    if size = 0 then (order, bitSetCount)
    else sizeToOrderLoop fuel (size / 2) (order + 1) (bitSetCount + size % 2)

def sizeToOrder (size : Nat) : Int :=
  let (order, bitSetCount) := sizeToOrderLoop 32 size (-1) 0
  if bitSetCount = 1 then order else order + 1

/-- `list_add` links a buffer at the tail of a bucket. -/
def Heap.listAdd (s : Heap) (bucket buffer : Nat) : Heap :=
  { s with mmBucket := Function.update s.mmBucket bucket (s.mmBucket bucket ++ [buffer]) }

/-- `list_del` takes a buffer out of the list that holds it. -/
def Heap.listDel (s : Heap) (buffer : Nat) : Heap :=
  { s with mmBucket := fun bucket => (s.mmBucket bucket).erase buffer }

def Heap.setBuffer (s : Heap) (address : Nat) (buffer : MmBuffer) : Heap :=
  { s with buffer := Function.update s.buffer address buffer }

/-- `mm_add_region` makes the whole region one free block. -/
def mmAddRegion (s : Heap) (region : MmRegion) : Int × Heap :=
  if countBitSet 32 region.size ≠ 1 then (-EINVAL, s) else
    let s := { s with total := s.total + BitVec.ofNat 32 region.size }
    let s := if s.isInitialized then s else { s with mmBucket := fun _ => [], isInitialized := true }
    let bucket := (sizeToOrder region.size).toNat
    let s := s.setBuffer region.start ⟨bucket, s.mmRegionList.length⟩
    let s := { s with mmRegionList := s.mmRegionList ++ [region] }
    (0, s.listAdd bucket region.start)

/-- `buffer->region->flags` -/
def Heap.flagsOf (s : Heap) (buffer : Nat) : BitVec 32 :=
  match s.mmRegionList[(s.buffer buffer).region]? with
  | some region => region.flags
  | none => 0

/-- The region of the buffer has all the wanted flags. -/
def Heap.suits (s : Heap) (flags : BitVec 32) (buffer : Nat) : Bool := s.flagsOf buffer &&& flags == flags

/-- `find_buffer_in_bucket` returns the first suitable buffer or the null pointer. -/
def Heap.findBufferInBucket (s : Heap) (order : Nat) (flags : BitVec 32) : Nat :=
  if maxAddressableMemOrder < order then 0 else ((s.mmBucket order).find? (s.suits flags)).getD 0

/-- This is the end of `fill_bucket`: both halves of `buffer1` join the lower bucket. -/
def Heap.splitBuffer (s : Heap) (order buffer1 : Nat) : Heap :=
  let s := s.listDel buffer1
  let buffer2 := buffer1 + 2 ^ order
  let region := (s.buffer buffer1).region
  let s := s.setBuffer buffer1 ⟨order, region⟩
  let s := s.setBuffer buffer2 ⟨order, region⟩
  (s.listAdd order buffer1).listAdd order buffer2

/-- `fill_bucket(order, flags)` for the order `32 - levels`; no level is left above the largest order. -/
def fillBucket (flags : BitVec 32) : Nat → Heap → Int × Heap
  | 0, s => (-ENOMEM, s)
  | levels + 1, s =>
    let order := maxAddressableMemOrder - levels
    let buffer1 := s.findBufferInBucket (order + 1) flags
    if buffer1 ≠ 0 then (0, s.splitBuffer order buffer1) else
      let (retval, s) := fillBucket flags levels s
      if retval ≠ 0 then (retval, s) else
        let buffer1 := s.findBufferInBucket (order + 1) flags
        if buffer1 = 0 then (-ENOMEM, s) else (0, s.splitBuffer order buffer1)

/-- This is the merge in `defragment`: two buddies leave their bucket, and the lower one joins the next. -/
def Heap.mergeBuffers (s : Heap) (bufferLow bufferHigh : Nat) : Heap :=
  let s := (s.listDel bufferLow).listDel bufferHigh
  let s := s.setBuffer bufferLow ⟨(s.buffer bufferLow).bucket + 1, (s.buffer bufferLow).region⟩
  s.listAdd (s.buffer bufferLow).bucket bufferLow

/-- `defragment` merges a free buffer with its buddy, and the result with its own buddy. -/
def defragment : Nat → Heap → Nat → Heap
  | 0, s, _ => s
  | levels + 1, s, buffer =>
    let bucket := (s.buffer buffer).bucket
    if (s.mmBucket bucket).isEmpty then s else
      let upper := buffer.testBit bucket
      let buffer2 := if upper then buffer - 2 ^ bucket else buffer + 2 ^ bucket
      let bufferLow := if upper then buffer2 else buffer
      let bufferHigh := if upper then buffer else buffer2
      if buffer2 ∈ s.mmBucket bucket then
        if (s.buffer bufferLow).region ≠ (s.buffer bufferHigh).region then s
        else defragment levels (s.mergeBuffers bufferLow bufferHigh) bufferLow
      else s

/-- `get_buffer` tries the wanted flags first and then `MM_DMA` alone. -/
def getBuffer : Nat → Heap → Nat → BitVec 32 → Nat × Heap
  | depth, s, order, flags =>
    let buffer := s.findBufferInBucket order flags
    if buffer ≠ 0 then (buffer, s) else
      let (retval, s) := fillBucket flags (maxAddressableMemOrder + 1 - order) s
      if retval = 0 then (s.findBufferInBucket order flags, s)
      else if flags &&& MM_DMA ≠ 0 then (0, s)
      else match depth with
        | 0 => (0, s)
        | depth + 1 => getBuffer depth s order MM_DMA

/-- `kmalloc` returns the address after the header of the block, or the null pointer. -/
def kmalloc (s : Heap) (size flags : BitVec 32) : Nat × Heap :=
  if size = 0 then (0, s) else
    let order := sizeToOrder (size + BitVec.ofNat 32 bufferSize).toNat
    if order < 0 then (0, s) else
      let s := { s with used := s.used + orderToSize order.toNat }
      if maxAddressableMemOrder < order.toNat then (0, s) else
        let (buffer, s) := getBuffer 1 s order.toNat flags
        if buffer = 0 then (0, s) else (buffer + bufferSize, s.listDel buffer)

/-- The links of a buffer are equal when no list or a list of one holds it. -/
def Heap.prevIsNext (s : Heap) (buffer : Nat) : Prop :=
  ∀ bucket ≤ maxAddressableMemOrder, buffer ∈ s.mmBucket bucket → (s.mmBucket bucket).length = 1

instance (s : Heap) (buffer : Nat) : Decidable (s.prevIsNext buffer) :=
  inferInstanceAs (Decidable (∀ bucket ≤ maxAddressableMemOrder, _))

def kfree (s : Heap) (ptr : Nat) : Heap :=
  if ptr = 0 then s else
    let buffer := ptr - bufferSize
    if ¬ s.prevIsNext buffer then s else
      let bucket := (s.buffer buffer).bucket
      let s := { s with used := s.used - orderToSize bucket }
      defragment (maxAddressableMemOrder + 1) (s.listAdd bucket buffer) buffer

/-- The callers hold the pointers that `kmalloc` returned and `kfree` did not take back. -/
structure System where
  heap : Heap
  held : Finset Nat

/-- The regions are added before the first call. -/
def System.boot (regions : List MmRegion) : System :=
  ⟨regions.foldl (fun s region => (mmAddRegion s region).2) .initial, ∅⟩

inductive Call where
  | kmalloc (size flags : BitVec 32)
  | kfree (ptr : Nat)

/-- A size may not wrap, and only held pointers or the null pointer are freed. -/
def step (s : System) : Call → Option System
  | .kmalloc size flags =>
    if s.heap.isInitialized ∧ size.toNat + bufferSize < 2 ^ 32 then
      let (ptr, heap) := kmalloc s.heap size flags
      some ⟨heap, if ptr = 0 then s.held else insert ptr s.held⟩
    else none
  | .kfree ptr =>
    if ptr = 0 then some s
    else if ptr ∈ s.held then some ⟨kfree s.heap ptr, s.held.erase ptr⟩
    else none

/-
This part embeds `kfree` of kernel/mm.c on the links of lib/list.c, where each bucket is a ring through its buffers.
-/

open Library

section List
variable {Node : Type} [DecidableEq Node]

def setPrev (links : Links Node) (node value : Node) : Links Node :=
  { links with prev := Function.update links.prev node value }

def setNext (links : Links Node) (node value : Node) : Links Node :=
  { links with next := Function.update links.next node value }

def listInit (links : Links Node) (head : Node) : Links Node :=
  setPrev (setNext links head head) head head

def listIsEmpty (links : Links Node) (head : Node) : Bool := head = links.next head

def listAdd (links : Links Node) (head node : Node) : Links Node :=
  let links := setNext links node head
  let links := setPrev links node (links.prev head)
  let links := setNext links (links.prev head) node
  setPrev links head node

def listDel (links : Links Node) (head : Node) : Links Node :=
  let links := setNext links (links.prev head) (links.next head)
  let links := setPrev links (links.next head) (links.prev head)
  listInit links head

end List

/-- The nodes are the heads `mm_bucket[order]` and the `list` fields of the buffers. -/
inductive Node where
  | mmBucket (order : Nat)
  | buffer (address : Nat)
  deriving DecidableEq

/-- What `kfree` reads and writes: the links, the headers and the counter. -/
structure LinkedHeap where
  links : Links Node
  buffer : Nat → MmBuffer
  used : BitVec 32

/-- `defragment` does not return when the walk through the bucket does not end. -/
def LinkedHeap.defragment : Nat → LinkedHeap → Nat → Option LinkedHeap
  | 0, _, _ => none
  | fuel + 1, s, buffer =>
    let bucket := (s.buffer buffer).bucket
    if listIsEmpty s.links (.mmBucket bucket) then some s else
      let upper := buffer.testBit bucket
      let buffer2 := if upper then buffer - 2 ^ bucket else buffer + 2 ^ bucket
      let bufferLow := if upper then buffer2 else buffer
      let bufferHigh := if upper then buffer else buffer2
      match s.links.walk (.mmBucket bucket) (.buffer buffer2) fuel (s.links.next (.mmBucket bucket)) with
      | none => none
      | some false => some s
      | some true =>
        if (s.buffer bufferLow).region ≠ (s.buffer bufferHigh).region then some s else
          let links := listDel s.links (.buffer bufferLow)
          let links := listDel links (.buffer bufferHigh)
          let low : MmBuffer := ⟨(s.buffer bufferLow).bucket + 1, (s.buffer bufferLow).region⟩
          let links := listAdd links (.mmBucket low.bucket) (.buffer bufferLow)
          LinkedHeap.defragment fuel { s with links, buffer := Function.update s.buffer bufferLow low } bufferLow

/-- `kfree` takes a buffer for allocated when its links are equal. -/
def LinkedHeap.kfree (fuel : Nat) (s : LinkedHeap) (ptr : Nat) : Option LinkedHeap :=
  if ptr = 0 then some s else
    let buffer := ptr - bufferSize
    if s.links.prev (.buffer buffer) ≠ s.links.next (.buffer buffer) then some s else
      let bucket := (s.buffer buffer).bucket
      let s := { s with used := s.used - orderToSize bucket }
      LinkedHeap.defragment fuel { s with links := listAdd s.links (.mmBucket bucket) (.buffer buffer) } buffer

/-
This part embeds the page allocator of kernel/mm.c and the clients of the heap.
-/

def PAGE_ORDER : Nat := 8

def PAGE_SIZE : Nat := 2 ^ PAGE_ORDER

/-- What `page_alloc` makes of the null pointer. -/
def nullPage : Nat := 2 ^ 32 - bufferSize

/-- `page_alloc` returns the address of the header of the block. -/
def pageAlloc (s : Heap) (flags : BitVec 32) (order : Nat) : Nat × Heap :=
  let size := (1#32 <<< order) <<< PAGE_ORDER - BitVec.ofNat 32 bufferSize
  let (buffer, s) := kmalloc s size flags
  ((buffer + nullPage) % 2 ^ 32, s)

/-- `region->start + region->size`, in 32-bit arithmetic -/
def MmRegion.limit (region : MmRegion) : Nat := (region.start + region.size) % 2 ^ 32

/-- The bytes of the pages, in 32-bit arithmetic. -/
def pageBytes (order : Nat) : Nat := (1#32 <<< order).toNat * PAGE_SIZE % 2 ^ 32

/-- `page_free` looks for the region of the pages, which may not cross its end. -/
def Heap.pageRegion (s : Heap) (ptr size : Nat) : Option Nat :=
  match s.mmRegionList.zipIdx.find? fun reg => decide (reg.1.start ≤ ptr) && decide (ptr < reg.1.limit) with
  | none => none
  | some (region, position) => if region.limit < (ptr + size) % 2 ^ 32 then none else some position

/-- `page_free` writes the header again, as the pages may have overwritten it. -/
def pageFree (s : Heap) (ptr order : Nat) : Heap :=
  match s.pageRegion ptr (pageBytes order) with
  | none => s
  | some region =>
    kfree (s.setBuffer ptr ⟨(sizeToOrder (pageBytes order)).toNat, region⟩) (ptr + bufferSize)

/-- The clients hold pointers of `kmalloc`, and pages of some order at an address. -/
structure Clients where
  heap : Heap
  held : Finset Nat
  pages : Finset (Nat × Nat)

def Clients.boot (regions : List MmRegion) : Clients := ⟨(System.boot regions).heap, ∅, ∅⟩

inductive Request where
  | kmalloc (size flags : BitVec 32)
  | kfree (ptr : Nat)
  | pageAlloc (flags : BitVec 32) (order : Nat)
  | pageFree (page order : Nat)
  | write (address : Nat) (header : MmBuffer)

/-- The clients own the bytes after a header, and all bytes of their pages. -/
def Clients.Owns (s : Clients) (address : Nat) : Prop :=
  (∃ ptr ∈ s.held, ptr ≤ address ∧ address < ptr - bufferSize + 2 ^ (s.heap.buffer (ptr - bufferSize)).bucket) ∨
    ∃ page ∈ s.pages, page.1 ≤ address ∧ address < page.1 + 2 ^ (page.2 + PAGE_ORDER)

instance (s : Clients) (address : Nat) : Decidable (s.Owns address) :=
  inferInstanceAs (Decidable ((∃ ptr ∈ s.held, _) ∨ ∃ page ∈ s.pages, _))

/-- A client holds what `kmalloc` returned, unless it is the null pointer. -/
def Clients.afterKmalloc (s : Clients) (result : Nat × Heap) : Clients :=
  { s with heap := result.2, held := if result.1 = 0 then s.held else insert result.1 s.held }

/-- A client has the pages that `page_alloc` returned, unless there are none. -/
def Clients.afterPageAlloc (s : Clients) (order : Nat) (result : Nat × Heap) : Clients :=
  { s with heap := result.2, pages := if result.1 = nullPage then s.pages else insert (result.1, order) s.pages }

/-- Pages that `page_free` does not take back stay allocated. -/
def Clients.afterPageFree (s : Clients) (page order : Nat) : Clients :=
  { s with
    heap := Mm.pageFree s.heap page order
    pages := if (s.heap.pageRegion page (pageBytes order)).isSome then s.pages.erase (page, order) else s.pages }

/-- Clients free what they hold, and write anything where a header might be in the bytes that they own. -/
def Clients.step (s : Clients) : Request → Option Clients
  | .kmalloc size flags =>
    if s.heap.isInitialized then some (s.afterKmalloc (Mm.kmalloc s.heap size flags)) else none
  | .kfree ptr =>
    if ptr = 0 then some s
    else if ptr ∈ s.held then some { s with heap := Mm.kfree s.heap ptr, held := s.held.erase ptr }
    else none
  | .pageAlloc flags order =>
    if s.heap.isInitialized then some (s.afterPageAlloc order (Mm.pageAlloc s.heap flags order)) else none
  | .pageFree page order =>
    if (page, order) ∈ s.pages then some (s.afterPageFree page order) else none
  | .write address header =>
    if s.Owns address then some { s with heap := s.heap.setBuffer address header } else none

/-- The bytes of a block of `kmalloc` and those of its header do not wrap. -/
def Request.Short : Request → Prop
  | .kmalloc size _ => size.toNat + bufferSize < 2 ^ 32
  | .pageAlloc _ order => order + PAGE_ORDER ≤ maxAddressableMemOrder
  | _ => True

instance : (request : Request) → Decidable request.Short
  | .kmalloc size _ => inferInstanceAs (Decidable (size.toNat + bufferSize < 2 ^ 32))
  | .pageAlloc _ order => inferInstanceAs (Decidable (order + PAGE_ORDER ≤ maxAddressableMemOrder))
  | .kfree _ => isTrue trivial
  | .pageFree _ _ => isTrue trivial
  | .write _ _ => isTrue trivial

/-
This part embeds the search of kernel/mm.c for memory regions at boot.
-/

def MIN_REGION_ORDER : Nat := PAGE_ORDER

/-- `ARRAY_SIZE(stm32_mm_regions)` -/
def stm32MmRegions : Nat := 10

/-- This is the loop of `find_msb` from the bit below `bits` down. -/
def findMsbLoop (x : BitVec 32) : Nat → Int
  | 0 => -EINVAL
  | i + 1 => if x &&& 1#32 <<< i ≠ 0 then i else findMsbLoop x i

def findMsb (x : BitVec 32) : Int := findMsbLoop x 32

/-- One turn of the inner loop of `mm_init`: the region of the order, when it can fit and be aligned. -/
def regionOfOrder (mmStart mmEnd : BitVec 32) (flags : BitVec 32) (msb : Nat) : Option MmRegion :=
  let regionSize := 1#32 <<< msb
  let regionStart := mmStart &&& ~~~(regionSize - 1)
  let regionStart := if regionStart < mmStart then regionStart + 1#32 <<< msb else regionStart
  if mmStart ≤ regionStart ∧ regionStart + regionSize ≤ mmEnd
  then some ⟨regionStart.toNat, regionSize.toNat, flags⟩ else none

/-- The inner loop of `mm_init` tries smaller orders until the size is below the least one. -/
def searchRegion (mmStart mmEnd : BitVec 32) (flags : BitVec 32) : Nat → Option MmRegion
  | 0 => none
  | msb + 1 =>
    if 1#32 <<< (msb + 1) < 1#32 <<< MIN_REGION_ORDER then none
    else
      match regionOfOrder mmStart mmEnd flags (msb + 1) with
      | some region => some region
      | none => searchRegion mmStart mmEnd flags msb

/-- The outer loop of `mm_init`: `1 << msb` is 0 for an `msb` below 0, so that there is no region then. -/
def mmInitLoop (mmStart mmEnd : BitVec 32) (flags : BitVec 32) : Nat → BitVec 32 → Heap → Heap
  | 0, _, s => s
  | turns + 1, mmAvailable, s =>
    match findMsb mmAvailable with
    | .negSucc _ => s
    | .ofNat msb =>
      match searchRegion mmStart mmEnd flags msb with
      | none => s
      | some region =>
        mmInitLoop mmStart mmEnd flags turns (mmAvailable - BitVec.ofNat 32 region.size) (mmAddRegion s region).2

def mmInit (flags mmStart mmEnd : BitVec 32) : Heap :=
  mmInitLoop mmStart mmEnd flags stm32MmRegions (mmEnd - mmStart) .initial

/-
This part embeds the wrappers of kernel/mm.c for the allocator of libc, with the bytes of the memory.
-/

open Library.ByteMemory

/-- An address lies in the header of a listed block. -/
def Heap.InHeader (s : Heap) (address : Nat) : Prop :=
  ∃ bucket ≤ maxAddressableMemOrder, ∃ block ∈ s.mmBucket bucket, block ≤ address ∧ address < block + bufferSize

instance (s : Heap) (address : Nat) : Decidable (s.InHeader address) :=
  inferInstanceAs (Decidable (∃ bucket ≤ maxAddressableMemOrder, _))

/-- The bytes after `kmalloc` or `kfree`: the headers of the blocks that are listed before or after, and that of the
block at the pointer, are written with whatever they hold. -/
def writeHeaders (before after : Heap) (ptr : Nat) (headers bytes : Memory) : Memory := fun address =>
  if before.InHeader address ∨ after.InHeader address ∨ (ptr - bufferSize ≤ address ∧ address < ptr)
  then headers address else bytes address

/-- The heap with the pointers that it has given out, and the bytes of the memory. -/
structure Bytes where
  system : System
  bytes : Memory

def Bytes.kmalloc (s : Bytes) (headers : Memory) (size : BitVec 32) : Nat × Bytes :=
  let (ptr, heap) := Mm.kmalloc s.system.heap size 0
  (ptr, ⟨⟨heap, if ptr = 0 then s.system.held else insert ptr s.system.held⟩,
    writeHeaders s.system.heap heap ptr headers s.bytes⟩)

def Bytes.kfree (s : Bytes) (headers : Memory) (ptr : Nat) : Bytes :=
  let heap := Mm.kfree s.system.heap ptr
  ⟨⟨heap, s.system.held.erase ptr⟩, writeHeaders s.system.heap heap ptr headers s.bytes⟩

def wrapMallocR (s : Bytes) (headers : Memory) (size : BitVec 32) : Nat × Bytes := s.kmalloc headers size

/-- `__wrap__free_r` allocates as many bytes as its pointer says. -/
def wrapFreeR (s : Bytes) (headers : Memory) (size : BitVec 32) : Nat × Bytes := s.kmalloc headers size

/-- `memcpy` from a buffer that does not overlap. -/
def memcpy (bytes : Memory) (dest source length : Nat) : Memory := write bytes dest (read bytes source length)

def wrapReallocR (s : Bytes) (headers freed : Memory) (ptr : Nat) (size : BitVec 32) : Nat × Bytes :=
  let (newptr, s) := s.kmalloc headers size
  if ptr = 0 then (newptr, s)
  else if newptr = 0 then (0, s)
  else
    let buffer := ptr - bufferSize
    if ¬ s.system.heap.prevIsNext buffer then (0, s) else
      let oldSize := orderToSize (s.system.heap.buffer buffer).bucket - BitVec.ofNat 32 bufferSize
      let s := { s with bytes := memcpy s.bytes newptr ptr (min oldSize.toNat size.toNat) }
      (newptr, s.kfree freed ptr)

/-- The client of the wrappers has the pointers that they returned, less those that it freed or gave to `realloc`. -/
structure Libc where
  memory : Bytes
  owned : Finset Nat

def Libc.boot (regions : List MmRegion) (bytes : Memory) : Libc := ⟨⟨System.boot regions, bytes⟩, ∅⟩

inductive LibcCall where
  | mallocR (size : BitVec 32) (headers : Memory)
  | freeR (ptr : Nat) (headers : Memory)
  | reallocR (ptr : Nat) (size : BitVec 32) (headers freed : Memory)
  | write (address : Nat) (value : UInt8)

/-- The bytes of a block after its header. -/
def Bytes.capacity (s : Bytes) (ptr : Nat) : Nat := 2 ^ (s.system.heap.buffer (ptr - bufferSize)).bucket - bufferSize

/-- The client frees and reallocates what it has, or the null pointer, and writes to the bytes that it has. -/
def Libc.step (s : Libc) : LibcCall → Option Libc
  | .mallocR size headers =>
    if s.memory.system.heap.isInitialized then
      let (ptr, memory) := wrapMallocR s.memory headers size
      some ⟨memory, if ptr = 0 then s.owned else insert ptr s.owned⟩
    else none
  | .freeR ptr headers =>
    if s.memory.system.heap.isInitialized ∧ (ptr = 0 ∨ ptr ∈ s.owned) then
      let (_, memory) := wrapFreeR s.memory headers (BitVec.ofNat 32 ptr)
      some ⟨memory, s.owned.erase ptr⟩
    else none
  | .reallocR ptr size headers freed =>
    if s.memory.system.heap.isInitialized ∧ (ptr = 0 ∨ ptr ∈ s.owned) then
      let (newptr, memory) := wrapReallocR s.memory headers freed ptr size
      some ⟨memory, if newptr = 0 then s.owned else insert newptr (s.owned.erase ptr)⟩
    else none
  | .write address value =>
    if ∃ ptr ∈ s.owned, ptr ≤ address ∧ address < ptr + s.memory.capacity ptr then
      some { s with memory.bytes := Function.update s.memory.bytes address value }
    else none

end Phabos.Mm
