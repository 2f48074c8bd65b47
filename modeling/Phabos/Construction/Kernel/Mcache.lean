import Phabos.Construction.Kernel.Mm

/-
This file embeds the slab caches of kernel/mcache.c.
-/

namespace Phabos.Slab
open Mm (sizeToOrder)

def PAGE_SIZE : Nat := 256

/-- A new slab has this number of objects. -/
def numObjects : Nat := 5

/-- This many bytes hold a bit for each object. -/
def bitmapSize : Nat := numObjects / 8 + if numObjects % 8 ≠ 0 then 1 else 0

/-- `ptr` is where the structure is, and `buffer` is where its objects are. -/
structure McacheSlab where
  ptr : Nat
  size : Nat
  buffer : Nat
  refcount : BitVec 32
  bitmap : List Bool
  deriving DecidableEq, Repr

/-- The slabs of a cache are on three lists. -/
structure Mcache where
  ptr : Nat
  size : Nat
  ctor : Bool
  dtor : Bool
  emptySlabs : List McacheSlab
  partialSlabs : List McacheSlab
  fullSlabs : List McacheSlab
  deriving DecidableEq, Repr

/-- These are the calls that a cache makes to the allocators, to `mm_usage.cached` and to its owner. -/
inductive Effect where
  | pageAlloc (address : Nat) (order : Int)
  | pageFree (address : Nat) (order : Int)
  | kzalloc (address : Nat)
  | kfree (address : Nat)
  | cached (amount : BitVec 32)
  | ctor (object : Nat)
  | dtor (object : Nat)
  deriving DecidableEq, Repr

/-- `mcache_create`, with what `kzalloc` returns -/
def mcacheCreate (size align : Nat) (ctor dtor : Bool) (ptr : Option Nat) : Option Mcache × List Effect :=
  match ptr with
  | none => (none, [])
  | some ptr => (some ⟨ptr, max size align, ctor, dtor, [], [], []⟩, [.kzalloc ptr])

/-- A slab's objects take this many bytes, computed in a 32-bit `size_t`. -/
def Mcache.bufferSize (cache : Mcache) : Nat := numObjects * cache.size % 2 ^ 32

def Mcache.pages (cache : Mcache) : Nat :=
  cache.bufferSize / PAGE_SIZE + if cache.bufferSize % PAGE_SIZE ≠ 0 then 1 else 0

/-- `num_object`, as the other functions compute it from the size of a slab -/
def Mcache.numObject (cache : Mcache) (slab : McacheSlab) : Nat := slab.size / cache.size

/-- The address of an object of a slab. -/
def Mcache.object (cache : Mcache) (buffer object : Nat) : Nat := buffer + cache.size * object

/-- `mcache_allocate_new_slab`, with what `page_alloc` and `kzalloc` return. A null pointer for the pages is what the
function tests for, but not what `page_alloc` of kernel/mm.c returns without pages. -/
def mcacheAllocateNewSlab (cache : Mcache) (page ptr : Option Nat) : Option McacheSlab × List Effect :=
  match page with
  | none => (none, [])
  | some buffer =>
    let acquired := [.pageAlloc buffer (sizeToOrder cache.pages), .cached (.ofNat 32 cache.bufferSize)]
    match ptr with
    | none => (none, acquired)
    | some ptr =>
      (some ⟨ptr, cache.bufferSize, buffer, 0, List.replicate (8 * bitmapSize) false⟩,
        acquired ++ [.kzalloc ptr] ++
          if cache.ctor then (List.range numObjects).map fun i => .ctor (cache.object buffer i) else [])

/-- The first slab of the empty list, or else a new one, is put at the end of the partial list. -/
def mcacheMoveEmptySlabToPartialList (cache : Mcache) (page ptr : Option Nat) :
    Option Mcache × List Effect :=
  match cache.emptySlabs with
  | slab :: rest =>
    (some { cache with emptySlabs := rest, partialSlabs := cache.partialSlabs ++ [slab] }, [])
  | [] =>
    let (slab, effects) := mcacheAllocateNewSlab cache page ptr
    (slab.map fun slab => { cache with partialSlabs := cache.partialSlabs ++ [slab] }, effects)

/-- `slab_alloc_object` takes the first object whose bit is clear. -/
def slabAllocObject (cache : Mcache) (slab : McacheSlab) : Option Nat × McacheSlab :=
  match (slab.bitmap.take (cache.numObject slab)).findIdx? (! ·) with
  | none => (none, slab)
  | some object =>
    (some (cache.object slab.buffer object), { slab with
      bitmap := slab.bitmap.set object true
      refcount := slab.refcount + 1 })

/-- An allocation from the first partial slab moves the slab to the full list with its last object. -/
def Mcache.allocPartial (cache : Mcache) : Option Nat × Mcache :=
  match cache.partialSlabs with
  | [] => (none, cache)
  | slab :: rest =>
    let (buffer, slab) := slabAllocObject cache slab
    if slab.refcount.toNat = cache.numObject slab then
      (buffer, { cache with partialSlabs := rest, fullSlabs := cache.fullSlabs ++ [slab] })
    else (buffer, { cache with partialSlabs := slab :: rest })

/-- `mcache_alloc`, with what `page_alloc` and `kzalloc` return if they are called -/
def mcacheAlloc (cache : Mcache) (page ptr : Option Nat) : Option Nat × Mcache × List Effect :=
  if cache.partialSlabs = [] then
    match mcacheMoveEmptySlabToPartialList cache page ptr with
    | (none, effects) => (none, cache, effects)
    | (some cache, effects) => (cache.allocPartial.1, cache.allocPartial.2, effects)
  else (cache.allocPartial.1, cache.allocPartial.2, [])

/-- Whether a pointer lies in the objects of a slab. -/
def McacheSlab.holds (slab : McacheSlab) (ptr : Nat) : Bool :=
  decide (slab.buffer ≤ ptr) && decide (ptr < slab.buffer + slab.size)

/-- `slab_free_object` clears the bit of an object. -/
def slabFreeObject (cache : Mcache) (slab : McacheSlab) (ptr : Nat) : McacheSlab :=
  { slab with
    bitmap := slab.bitmap.set ((ptr - slab.buffer) / cache.size) false
    refcount := slab.refcount - 1 }

/-- A slab goes to the end of the partial list, or without objects to the end of the empty list. -/
def Mcache.put (cache : Mcache) (slab : McacheSlab) : Mcache :=
  if slab.refcount = 0 then { cache with emptySlabs := cache.emptySlabs ++ [slab] }
  else { cache with partialSlabs := cache.partialSlabs ++ [slab] }

/-- `mcache_free` looks for the slab on the partial and then on the full list, and does nothing for a
pointer that lies in none of them. -/
def mcacheFree (cache : Mcache) (ptr : Nat) : Mcache :=
  if ptr = 0 then cache
  else match cache.partialSlabs.find? (·.holds ptr) with
    | some slab =>
      { cache with partialSlabs := cache.partialSlabs.eraseP (·.holds ptr) }.put
        (slabFreeObject cache slab ptr)
    | none =>
      match cache.fullSlabs.find? (·.holds ptr) with
      | some slab =>
        { cache with fullSlabs := cache.fullSlabs.eraseP (·.holds ptr) }.put
          (slabFreeObject cache slab ptr)
      | none => cache

/-- `mcache_destroy_slab` -/
def mcacheDestroySlab (cache : Mcache) (slab : McacheSlab) : List Effect :=
  (if cache.dtor then
    (List.range (cache.numObject slab)).map fun i => .dtor (cache.object slab.buffer i) else []) ++
  [.cached (.ofInt 32 (-sizeToOrder slab.size)), .pageFree slab.buffer (sizeToOrder slab.size),
    .kfree slab.ptr]

/-- `mcache_destroy` walks the full, the partial and the empty list. A freed slab still has its link. -/
def mcacheDestroy (cache : Mcache) : List Effect :=
  (cache.fullSlabs ++ cache.partialSlabs ++ cache.emptySlabs).flatMap (mcacheDestroySlab cache) ++
    [.kfree cache.ptr]

/-- The slabs of a cache, whatever list they are on. -/
def Mcache.slabs (cache : Mcache) : List McacheSlab :=
  cache.emptySlabs ++ cache.partialSlabs ++ cache.fullSlabs

/-- A new slab is needed when no slab has a free object. -/
def Mcache.needsSlab (cache : Mcache) : Prop := cache.partialSlabs = [] ∧ cache.emptySlabs = []

/-- The pages that `page_alloc` returned -/
def pagesAcquired (effects : List Effect) : List (Nat × Int) :=
  effects.filterMap fun | .pageAlloc address order => some (address, order) | _ => none

/-- The structures that `kzalloc` returned -/
def heapAcquired (effects : List Effect) : List Nat :=
  effects.filterMap fun | .kzalloc address => some address | _ => none

/-- The pages that `page_free` took -/
def pagesReleased (effects : List Effect) : List (Nat × Int) :=
  effects.filterMap fun | .pageFree address order => some (address, order) | _ => none

/-- The structures that `kfree` took -/
def heapReleased (effects : List Effect) : List Nat :=
  effects.filterMap fun | .kfree address => some address | _ => none

/-- The change of `mm_usage.cached` -/
def cachedTotal (effects : List Effect) : BitVec 32 :=
  (effects.map fun | .cached amount => amount | _ => 0).sum

/-- The objects that were constructed -/
def constructed (effects : List Effect) : List Nat :=
  effects.filterMap fun | .ctor object => some object | _ => none

/-- The objects that were destructed -/
def destructed (effects : List Effect) : List Nat :=
  effects.filterMap fun | .dtor object => some object | _ => none

/-- The objects that the callers hold are those that `mcache_alloc` returned and `mcache_free` did not
take back. -/
structure Client where
  cache : Mcache
  live : List Nat
  effects : List Effect
  deriving DecidableEq, Repr

def Client.create (cache : Mcache) : Client := ⟨cache, [], [.kzalloc cache.ptr]⟩

inductive Call where
  | alloc (page ptr : Option Nat)
  | free (ptr : Nat)
  deriving DecidableEq, Repr

/-- Two buffers of a number of bytes do not overlap. -/
def Apart (bytes one other : Nat) : Prop := one + bytes ≤ other ∨ other + bytes ≤ one

instance (bytes one other : Nat) : Decidable (Apart bytes one other) :=
  inferInstanceAs (Decidable (_ ∨ _))

/-- Pages lie in the address space and apart from all pages that the cache has. A structure has an
address that no other has. -/
def Client.Fresh (s : Client) (page ptr : Option Nat) : Prop :=
  (∀ address ∈ page, 0 < address ∧ address + s.cache.bufferSize ≤ 2 ^ 32 ∧
    ∀ other ∈ pagesAcquired s.effects, Apart s.cache.bufferSize other.1 address) ∧
  ∀ address ∈ ptr, 0 < address ∧ address ∉ heapAcquired s.effects

instance (s : Client) (page ptr : Option Nat) : Decidable (s.Fresh page ptr) :=
  inferInstanceAs (Decidable (_ ∧ _))

/-- Only live objects and pointers that lie in no slab are freed. -/
def step (s : Client) : Call → Option Client
  | .alloc page ptr =>
    if s.Fresh page ptr then
      let (object, cache, effects) := mcacheAlloc s.cache page ptr
      some ⟨cache, s.live ++ object.toList, s.effects ++ effects⟩
    else none
  | .free ptr =>
    if ptr ∈ s.live ∨ ∀ slab ∈ s.cache.slabs, slab.holds ptr = false then
      some ⟨mcacheFree s.cache ptr, s.live.erase ptr, s.effects⟩
    else none

/-- When no pages are left, `page_alloc` returns `nullPage` and not a null pointer. Other pages end before it, and
structures have addresses of 32 bits. -/
def Client.Given (s : Client) (page ptr : Option Nat) : Prop :=
  s.Fresh page ptr ∧ (∀ address ∈ page, address + s.cache.bufferSize ≤ Mm.nullPage) ∧ ∀ address ∈ ptr, address < 2 ^ 32

instance (s : Client) (page ptr : Option Nat) : Decidable (s.Given page ptr) :=
  inferInstanceAs (Decidable (_ ∧ _))

/-- A cache whose requests for pages may fail, and any pointers are freed. A slab without pages lies at `nullPage`: the
addresses of its objects wrap around, and so does its end, so that no pointer is found in it. -/
def lifeStep (s : Client) : Call → Option Client
  | .alloc page ptr =>
    if s.Given page ptr then
      let (object, cache, effects) := mcacheAlloc s.cache (some (page.getD Mm.nullPage)) ptr
      some ⟨cache, s.live ++ (object.map (· % 2 ^ 32)).toList, s.effects ++ effects⟩
    else none
  | .free ptr =>
    if Mm.nullPage ≤ ptr ∧ 2 ^ 32 ≤ Mm.nullPage + s.cache.bufferSize then some { s with live := s.live.erase ptr }
    else some ⟨mcacheFree s.cache ptr, s.live.erase ptr, s.effects⟩

end Phabos.Slab
