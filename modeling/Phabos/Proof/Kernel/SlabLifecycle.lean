import Phabos.Proof.Kernel.SlabInvariant

namespace Phabos.Slab
open Library List Option

/-- What a cache took from the allocators is given back as it was taken, and each constructed object is
destructed once. -/
structure Conserved (cache : Mcache) (effects : List Effect) : Prop where
  pages : (pagesReleased effects).Perm (pagesAcquired effects)
  heap : (heapReleased effects).Perm (heapAcquired effects)
  cached : cachedTotal effects = 0
  objects : cache.dtor = true → ∀ object ∈ constructed effects, (destructed effects).count object = 1

section Order

theorem sizeToOrderLoop_spec (fuel size : Nat) (order : Int) (count : Nat) (positive : 0 < size)
    (fits : size < 2 ^ fuel) :
    ∃ high low : Nat, 2 ^ high ≤ size ∧ size < 2 ^ (high + 1) ∧
      Mm.sizeToOrderLoop fuel size order count = (order + high + 1, count + low) ∧ 0 < low ∧
      (low = 1 ↔ size = 2 ^ high) := by
  induction fuel generalizing size order count with
  | zero =>
    rw [Nat.pow_zero] at fits
    omega
  | succ fuel ih =>
    unfold Mm.sizeToOrderLoop
    rw [if_neg (Nat.ne_of_gt positive)]
    rcases Nat.eq_zero_or_pos (size / 2) with zero | more
    · have one : size = 1 := by omega
      subst one
      refine ⟨0, 1, by decide, by decide, ?_, by decide, by decide⟩
      cases fuel <;> simp [Mm.sizeToOrderLoop]
    · obtain ⟨high, low, above, below, result, some, only⟩ :=
        ih (size / 2) (order + 1) (count + size % 2) more (by rw [Nat.pow_succ] at fits; omega)
      refine ⟨high + 1, size % 2 + low, ?_, ?_, ?_, by omega, ?_⟩
      · rw [Nat.pow_succ]
        omega
      · rw [Nat.pow_succ]
        omega
      · rw [result]
        refine Prod.ext ?_ ?_
        · push_cast
          omega
        · exact Nat.add_assoc _ _ _
      · have step : 2 ^ (high + 1) = 2 ^ high * 2 := Nat.pow_succ 2 high
        constructor
        · intro single
          have same := only.mp (by omega)
          omega
        · intro same
          have half : size / 2 = 2 ^ high := by omega
          have := only.mpr half
          omega

theorem sizeToOrder_spec (size : Nat) (positive : 0 < size) (fits : size < 2 ^ 32) :
    ∃ order : Nat, Mm.sizeToOrder size = order ∧ size ≤ 2 ^ order ∧ 2 ^ order < 2 * size := by
  obtain ⟨high, low, above, below, result, some, only⟩ :=
    sizeToOrderLoop_spec 32 size (-1) 0 positive fits
  unfold Mm.sizeToOrder
  rw [result]
  simp only [Nat.zero_add]
  by_cases single : low = 1
  · refine ⟨high, ?_, ?_, ?_⟩
    · rw [if_pos single]
      omega
    · exact Nat.le_of_eq (only.mp single)
    · have same := only.mp single
      omega
  · refine ⟨high + 1, ?_, Nat.le_of_lt below, ?_⟩
    · rw [if_neg single]
      push_cast
      omega
    · have differ : size ≠ 2 ^ high := fun same => single (only.mpr same)
      rw [Nat.pow_succ]
      omega

/-- The order of the bytes of a slab is not the order of its pages. -/
theorem order_of_bytes_ne (cache : Mcache) (more : 2 ≤ cache.bufferSize) :
    Mm.sizeToOrder cache.bufferSize ≠ Mm.sizeToOrder cache.pages := by
  have fits : cache.bufferSize < 2 ^ 32 := Nat.mod_lt _ (Nat.two_pow_pos 32)
  have pages : 0 < cache.pages ∧ 256 * (cache.pages - 1) < cache.bufferSize := by
    unfold Mcache.pages PAGE_SIZE
    split <;> omega
  obtain ⟨order, bytes, enough, -⟩ := sizeToOrder_spec cache.bufferSize (by omega) fits
  obtain ⟨other, paged, -, least⟩ := sizeToOrder_spec cache.pages pages.1 (by omega)
  rw [bytes, paged]
  intro same
  obtain rfl := Int.ofNat.inj same
  omega

end Order

/-- All slabs have the size of a new one, and the pages of each were acquired with the order of a new one. The
structures are apart, and nothing is given back. -/
structure Client.Traced (bytes : Nat) (order : Int) (s : Client) : Prop where
  ofBytes : s.cache.bufferSize = bytes
  ofOrder : Mm.sizeToOrder s.cache.pages = order
  slabs : ∀ slab ∈ s.cache.slabs, slab.size = bytes ∧ pagesAcquired s.effects ≠ []
  orders : ∀ page ∈ pagesAcquired s.effects, page.2 = order
  distinct : (heapAcquired s.effects).Nodup
  named : ∀ address ∈ heapAcquired s.effects, address = s.cache.ptr ∨ 0 < address ∧ address < 2 ^ 32
  cached : cachedTotal s.effects = BitVec.ofNat 32 ((pagesAcquired s.effects).length * bytes)
  released : pagesReleased s.effects = [] ∧ heapReleased s.effects = []
  idle : pagesAcquired s.effects = [] → s.effects = [.kzalloc s.cache.ptr]

section Sizes
variable {cache : Mcache} {slab : McacheSlab} {ptr : Nat}

/-- Two caches are one in memory and have objects of one size. -/
def Mcache.Same (cache other : Mcache) : Prop := other.size = cache.size ∧ other.ptr = cache.ptr

theorem allocPartial_sizes (cache : Mcache) :
    cache.Same cache.allocPartial.2 ∧
      ∀ slab ∈ cache.allocPartial.2.slabs, ∃ other ∈ cache.slabs, slab.size = other.size := by
  unfold Mcache.allocPartial
  split
  · exact ⟨⟨rfl, rfl⟩, fun slab there => ⟨slab, there, rfl⟩⟩
  · rename_i first rest shape
    have same : (slabAllocObject cache first).2.size = first.size := by
      unfold slabAllocObject
      split <;> rfl
    generalize slabAllocObject cache first = result at same ⊢
    obtain ⟨buffer, changed⟩ := result
    dsimp only at same ⊢
    have known : first ∈ cache.slabs := by
      unfold Mcache.slabs
      simp [shape]
    have others (slab) (there : slab ∈ cache.emptySlabs ∨ slab ∈ rest ∨ slab ∈ cache.fullSlabs) :
        slab ∈ cache.slabs := by
      unfold Mcache.slabs
      simp only [shape, mem_append, mem_cons]
      tauto
    split
    · refine ⟨⟨rfl, rfl⟩, fun slab there => ?_⟩
      simp only [Mcache.slabs, mem_append, mem_singleton] at there
      rcases there with (empty | partly) | full | rfl
      · exact ⟨slab, others slab (.inl empty), rfl⟩
      · exact ⟨slab, others slab (.inr (.inl partly)), rfl⟩
      · exact ⟨slab, others slab (.inr (.inr full)), rfl⟩
      · exact ⟨first, known, same⟩
    · refine ⟨⟨rfl, rfl⟩, fun slab there => ?_⟩
      simp only [Mcache.slabs, mem_append, mem_cons] at there
      rcases there with (empty | rfl | partly) | full
      · exact ⟨slab, others slab (.inl empty), rfl⟩
      · exact ⟨first, known, same⟩
      · exact ⟨slab, others slab (.inr (.inl partly)), rfl⟩
      · exact ⟨slab, others slab (.inr (.inr full)), rfl⟩

theorem mcacheFree_sizes (cache : Mcache) (ptr : Nat) :
    cache.Same (mcacheFree cache ptr) ∧
      ∀ slab ∈ (mcacheFree cache ptr).slabs, ∃ other ∈ cache.slabs, slab.size = other.size := by
  have put (middle : Mcache) (own : cache.Same middle) (slab : McacheSlab) (known : slab ∈ cache.slabs)
      (others : ∀ slab ∈ middle.slabs, slab ∈ cache.slabs) :
      cache.Same (middle.put (slabFreeObject cache slab ptr)) ∧
        ∀ kept ∈ (middle.put (slabFreeObject cache slab ptr)).slabs,
          ∃ other ∈ cache.slabs, kept.size = other.size := by
    obtain ⟨self, size, perm⟩ := put_perm middle (slabFreeObject cache slab ptr)
    refine ⟨⟨size.trans own.1, self.trans own.2⟩, fun other there => ?_⟩
    rcases mem_cons.mp (perm.mem_iff.mp there) with rfl | before
    · exact ⟨slab, known, rfl⟩
    · exact ⟨other, others other before, rfl⟩
  have same : cache.Same cache ∧ ∀ slab ∈ cache.slabs, ∃ other ∈ cache.slabs, slab.size = other.size :=
    ⟨⟨rfl, rfl⟩, fun slab there => ⟨slab, there, rfl⟩⟩
  unfold mcacheFree
  split
  · exact same
  · split
    · rename_i first hit
      have member := List.mem_of_find?_eq_some hit
      refine put { cache with partialSlabs := cache.partialSlabs.eraseP (·.holds ptr) } ⟨rfl, rfl⟩ first
        (by simp [Mcache.slabs, member]) fun slab there => ?_
      simp only [Mcache.slabs, mem_append] at there ⊢
      exact there.imp_left (Or.imp_right mem_of_mem_eraseP)
    · split
      · rename_i first hit
        have member := List.mem_of_find?_eq_some hit
        refine put { cache with fullSlabs := cache.fullSlabs.eraseP (·.holds ptr) } ⟨rfl, rfl⟩ first
          (by simp [Mcache.slabs, member]) fun slab there => ?_
        simp only [Mcache.slabs, mem_append] at there ⊢
        exact there.imp_right mem_of_mem_eraseP
      · exact same

theorem mcacheAlloc_sizes (cache : Mcache) (page node : Option Nat) :
    cache.Same (mcacheAlloc cache page node).2.1 ∧
      ((∀ slab ∈ (mcacheAlloc cache page node).2.1.slabs, ∃ other ∈ cache.slabs, slab.size = other.size) ∧
          (mcacheAlloc cache page node).2.2 = [] ∧ cache.slabs ≠ [] ∨
        cache.needsSlab ∧ (mcacheAlloc cache page node).2.2 = (mcacheAllocateNewSlab cache page node).2 ∧
          ∀ slab ∈ (mcacheAlloc cache page node).2.1.slabs, (∃ other ∈ cache.slabs, slab.size = other.size) ∨
            slab.size = cache.bufferSize) := by
  unfold mcacheAlloc
  split
  · rename_i partials
    cases empties : cache.emptySlabs with
    | nil =>
      have needs : cache.needsSlab := ⟨partials, empties⟩
      rw [mcacheMove_of_needs needs]
      rcases gives : mcacheAllocateNewSlab cache page node with ⟨new, effects⟩
      cases new with
      | none => exact ⟨⟨rfl, rfl⟩, .inr ⟨needs, rfl, fun slab there => .inl ⟨slab, there, rfl⟩⟩⟩
      | some slab =>
        have sized : slab.size = cache.bufferSize := by
          cases page with
          | none => cases gives
          | some buffer => cases node with
            | none => cases gives
            | some ptr => exact (congrArg McacheSlab.size (some.inj (Prod.mk.inj gives).1)).symm
        obtain ⟨own, sizes⟩ := allocPartial_sizes (cache.add slab)
        refine ⟨own, .inr ⟨needs, rfl, fun other there => ?_⟩⟩
        obtain ⟨old, known, same⟩ := sizes other there
        rcases mem_cons.mp (slabs_add.mem_iff.mp known) with rfl | before
        · exact .inr (same.trans sized)
        · exact .inl ⟨old, before, same⟩
    | cons first rest =>
      unfold mcacheMoveEmptySlabToPartialList
      simp only [empties]
      obtain ⟨own, sizes⟩ := allocPartial_sizes { cache with
        emptySlabs := rest, partialSlabs := cache.partialSlabs ++ [first] }
      refine ⟨own, .inl ⟨fun slab there => ?_, trivial, by simp [Mcache.slabs, empties]⟩⟩
      obtain ⟨other, known, same⟩ := sizes slab there
      refine ⟨other, ?_, same⟩
      simp only [Mcache.slabs, mem_append, mem_singleton] at known
      simp only [Mcache.slabs, empties, mem_append, mem_cons]
      tauto
  · rename_i partials
    obtain ⟨own, sizes⟩ := allocPartial_sizes cache
    exact ⟨own, .inl ⟨sizes, rfl, by simp [Mcache.slabs, partials]⟩⟩

theorem pagesReleased_append (early late : List Effect) :
    pagesReleased (early ++ late) = pagesReleased early ++ pagesReleased late := filterMap_append ..

theorem heapReleased_append (early late : List Effect) :
    heapReleased (early ++ late) = heapReleased early ++ heapReleased late := filterMap_append ..

theorem cachedTotal_append (early late : List Effect) :
    cachedTotal (early ++ late) = cachedTotal early + cachedTotal late := by
  unfold cachedTotal
  rw [map_append, sum_append]

/-- A new slab takes pages, counts its bytes, and takes a structure if there is one. -/
theorem newSlab_effects (cache : Mcache) (buffer : Nat) (node : Option Nat) :
    pagesAcquired (mcacheAllocateNewSlab cache (some buffer) node).2 = [(buffer, Mm.sizeToOrder cache.pages)] ∧
      heapAcquired (mcacheAllocateNewSlab cache (some buffer) node).2 = node.toList ∧
      cachedTotal (mcacheAllocateNewSlab cache (some buffer) node).2 = BitVec.ofNat 32 cache.bufferSize ∧
      pagesReleased (mcacheAllocateNewSlab cache (some buffer) node).2 = [] ∧
      heapReleased (mcacheAllocateNewSlab cache (some buffer) node).2 = [] := by
  have counted : cachedTotal [.pageAlloc buffer (Mm.sizeToOrder cache.pages), .cached (.ofNat 32 cache.bufferSize)] =
      BitVec.ofNat 32 cache.bufferSize := by
    simp [cachedTotal]
  cases node with
  | none => exact ⟨rfl, rfl, counted, rfl, rfl⟩
  | some ptr =>
    have ctors (object : Nat → Nat) : cachedTotal (if cache.ctor then
        (range numObjects).map fun i => .ctor (object i) else []) = 0 ∧
        pagesReleased (if cache.ctor then (range numObjects).map fun i => .ctor (object i) else []) = [] ∧
        heapReleased (if cache.ctor then (range numObjects).map fun i => .ctor (object i) else []) = [] := by
      split <;> exact ⟨rfl, rfl, rfl⟩
    obtain ⟨total, pages, heap⟩ := ctors (cache.object buffer)
    obtain ⟨-, -, names, acquired⟩ := @acquired_new _ cache _ _ buffer ptr _ rfl rfl rfl
    refine ⟨acquired, names, ?_, ?_, ?_⟩
    · simp only [mcacheAllocateNewSlab]
      rw [cachedTotal_append, cachedTotal_append, counted, total]
      simp [cachedTotal]
    · simp only [mcacheAllocateNewSlab]
      rw [pagesReleased_append, pages]
      rfl
    · simp only [mcacheAllocateNewSlab]
      rw [heapReleased_append, heap]
      rfl

theorem bufferSize_congr {other : Mcache} (size : other.size = cache.size) :
    other.bufferSize = cache.bufferSize ∧ other.pages = cache.pages := by
  unfold Mcache.pages Mcache.bufferSize
  rw [size]
  exact ⟨rfl, rfl⟩

section Traced
variable {bytes : Nat} {order : Int} {s next : Client} {call : Call} {cache : Mcache}

theorem Client.Traced.keep (traced : s.Traced bytes order) (own : s.cache.Same cache)
    (sizes : ∀ slab ∈ cache.slabs, ∃ other ∈ s.cache.slabs, slab.size = other.size) (live : List Nat) :
    Client.Traced bytes order ⟨cache, live, s.effects⟩ := by
  obtain ⟨sameBytes, samePages⟩ := bufferSize_congr own.1
  refine ⟨sameBytes.trans traced.ofBytes, samePages ▸ traced.ofOrder, fun slab there => ?_, traced.orders,
    traced.distinct, own.2 ▸ traced.named, traced.cached, traced.released, own.2 ▸ traced.idle⟩
  obtain ⟨other, known, size⟩ := sizes slab there
  rw [size]
  exact traced.slabs other known

theorem Client.Traced.grow (traced : s.Traced bytes order) (own : s.cache.Same cache)
    (sizes : ∀ slab ∈ cache.slabs, (∃ other ∈ s.cache.slabs, slab.size = other.size) ∨
      slab.size = s.cache.bufferSize) (live : List Nat) (buffer : Nat) {node : Option Nat}
    (fresh : ∀ address ∈ node, (0 < address ∧ address ∉ heapAcquired s.effects) ∧ address < 2 ^ 32) :
    Client.Traced bytes order ⟨cache, live, s.effects ++ (mcacheAllocateNewSlab s.cache (some buffer) node).2⟩ := by
  obtain ⟨sameBytes, samePages⟩ := bufferSize_congr own.1
  obtain ⟨pages, names, total, pagesBack, heapBack⟩ := newSlab_effects s.cache buffer node
  have acquired : pagesAcquired (s.effects ++ (mcacheAllocateNewSlab s.cache (some buffer) node).2) =
      pagesAcquired s.effects ++ [(buffer, order)] := by
    rw [pagesAcquired_append, pages, traced.ofOrder]
  refine ⟨sameBytes.trans traced.ofBytes, samePages ▸ traced.ofOrder, fun slab there => ?_, ?_, ?_, ?_, ?_, ?_, ?_⟩
  · refine ⟨?_, by simp [acquired]⟩
    rcases sizes slab there with ⟨other, known, size⟩ | size
    · exact size.trans (traced.slabs other known).1
    · exact size.trans traced.ofBytes
  · intro page there
    rw [acquired] at there
    rcases mem_append.mp there with before | new
    · exact traced.orders page before
    · rw [mem_singleton.mp new]
  · rw [heapAcquired_append, names]
    refine nodup_append.mpr ⟨traced.distinct, by cases node <;> simp, fun one before other now same => ?_⟩
    exact (fresh other (mem_toList.mp now)).1.2 (same ▸ before)
  · intro address there
    rw [heapAcquired_append, names] at there
    rcases mem_append.mp there with before | now
    · exact own.2 ▸ traced.named address before
    · obtain ⟨⟨positive, -⟩, fits⟩ := fresh address (mem_toList.mp now)
      exact .inr ⟨positive, fits⟩
  · rw [cachedTotal_append, acquired, total, traced.cached, traced.ofBytes, length_append, Nat.add_mul,
      BitVec.ofNat_add]
    simp
  · rw [pagesReleased_append, heapReleased_append, pagesBack, heapBack, traced.released.1, traced.released.2]
    exact ⟨rfl, rfl⟩
  · intro none
    rw [acquired] at none
    simp at none

/-- A call keeps the log in order, and an allocation finds or takes pages. -/
theorem Client.Traced.step (traced : s.Traced bytes order) (stepped : lifeStep s call = some next) :
    next.Traced bytes order ∧ (pagesAcquired next.effects = [] ↔
      pagesAcquired s.effects = [] ∧ ∀ page node, call ≠ .alloc page node) := by
  cases call with
  | alloc page node =>
    simp only [lifeStep, ite_none_right_eq_some] at stepped
    obtain ⟨⟨fresh, -, fits⟩, same⟩ := stepped
    obtain rfl := some.inj same
    obtain ⟨own, ⟨sizes, none, kept⟩ | ⟨-, effects, sizes⟩⟩ := mcacheAlloc_sizes s.cache (some (page.getD Mm.nullPage)) node
    · obtain ⟨slab, there⟩ := exists_mem_of_ne_nil _ kept
      rw [none, append_nil]
      exact ⟨traced.keep own sizes _, fun nothing => absurd nothing (traced.slabs slab there).2,
        fun both => absurd rfl (both.2 page node)⟩
    · rw [effects]
      refine ⟨traced.grow own sizes _ _ fun address there => ⟨fresh.2 address there, fits address there⟩, ?_,
        fun both => absurd rfl (both.2 page node)⟩
      intro nothing
      rw [pagesAcquired_append, (newSlab_effects s.cache _ node).1] at nothing
      simp at nothing
  | free ptr =>
    obtain ⟨own, sizes⟩ := mcacheFree_sizes s.cache ptr
    have idle : pagesAcquired s.effects = [] ↔
        pagesAcquired s.effects = [] ∧ ∀ page node, Call.free ptr ≠ .alloc page node :=
      (and_iff_left fun _ _ => nofun).symm
    unfold lifeStep at stepped
    dsimp only at stepped
    split at stepped
    · obtain rfl := some.inj stepped
      exact ⟨{ traced with }, idle⟩
    · obtain rfl := some.inj stepped
      exact ⟨traced.keep own sizes _, idle⟩

/-- A run keeps the trace of its effects, and acquires pages exactly when it has an allocation. -/
theorem run_acquires (calls : List Call) {s final : Client} (traced : s.Traced bytes order)
    (ran : run lifeStep s calls = some final) :
    final.Traced bytes order ∧ (pagesAcquired final.effects = [] ↔
      pagesAcquired s.effects = [] ∧ ∀ page node, .alloc page node ∉ calls) := by
  induction calls generalizing s with
  | nil =>
    obtain rfl := some.inj ran
    exact ⟨traced, fun nothing => ⟨nothing, fun page node => not_mem_nil⟩, And.left⟩
  | cons call rest ih =>
    obtain ⟨next, stepped, ran⟩ := bind_eq_some_iff.mp ran
    obtain ⟨later, acquires⟩ := traced.step stepped
    obtain ⟨last, iff⟩ := ih later ran
    refine ⟨last, iff.trans ?_⟩
    rw [acquires, and_assoc]
    apply and_congr_right
    intro _
    simp only [mem_cons, not_or, ne_comm, ne_eq, forall_and]

end Traced

theorem destroySlab_effects (cache : Mcache) (slab : McacheSlab) :
    pagesAcquired (mcacheDestroySlab cache slab) = [] ∧ heapAcquired (mcacheDestroySlab cache slab) = [] ∧
      pagesReleased (mcacheDestroySlab cache slab) = [(slab.buffer, Mm.sizeToOrder slab.size)] ∧
      heapReleased (mcacheDestroySlab cache slab) = [slab.ptr] := by
  unfold mcacheDestroySlab pagesAcquired heapAcquired pagesReleased heapReleased
  split
  · simp [filterMap_map]
  · exact ⟨rfl, rfl, rfl, rfl⟩

/-- Each slab gives back pages and its structure, and the cache gives back its own. -/
theorem destroy_effects (cache : Mcache) :
    pagesAcquired (mcacheDestroy cache) = [] ∧ heapAcquired (mcacheDestroy cache) = [] ∧
      (∀ page ∈ pagesReleased (mcacheDestroy cache), ∃ slab ∈ cache.slabs, page.2 = Mm.sizeToOrder slab.size) ∧
      (heapReleased (mcacheDestroy cache)).length = (pagesReleased (mcacheDestroy cache)).length + 1 := by
  have slab := destroySlab_effects cache
  unfold pagesAcquired heapAcquired pagesReleased heapReleased at slab
  unfold mcacheDestroy pagesAcquired heapAcquired pagesReleased heapReleased
  simp only [filterMap_append, filterMap_flatMap, (slab _).1, (slab _).2.1, (slab _).2.2.1, (slab _).2.2.2]
  refine ⟨by simp, by simp, fun page there => ?_, by simp; omega⟩
  rcases mem_append.mp there with early | late
  · obtain ⟨one, member, released⟩ := mem_flatMap.mp early
    refine ⟨one, ?_, by rw [mem_singleton.mp released]⟩
    simp only [Mcache.slabs, mem_append] at member ⊢
    tauto
  · cases late

theorem destroy_cached (cache : Mcache) (sized : ∀ slab ∈ cache.slabs, slab.size = 1) :
    cachedTotal (mcacheDestroy cache) = 0 := by
  have slab (slab : McacheSlab) (one : slab.size = 1) : cachedTotal (mcacheDestroySlab cache slab) = 0 := by
    have dtors (objects : List Nat) (object : Nat → Nat) :
        cachedTotal (objects.map fun i => .dtor (object i)) = 0 := by
      induction objects with
      | nil => rfl
      | cons first rest ih =>
        have split : cachedTotal ((first :: rest).map fun i => .dtor (object i)) =
            0 + cachedTotal (rest.map fun i => .dtor (object i)) := sum_cons
        rw [split, ih]
        rfl
    unfold mcacheDestroySlab
    rw [cachedTotal_append, one]
    split
    · rw [dtors]
      rfl
    · rfl
  have lists (slabs : List McacheSlab) (known : ∀ slab ∈ slabs, slab.size = 1) :
      cachedTotal (slabs.flatMap (mcacheDestroySlab cache)) = 0 := by
    induction slabs with
    | nil => rfl
    | cons first rest ih =>
      rw [flatMap_cons, cachedTotal_append, slab first (known first mem_cons_self),
        ih fun other there => known other (mem_cons_of_mem _ there)]
      rfl
  unfold mcacheDestroy
  rw [cachedTotal_append, lists _ fun slab there => sized slab (by
    simp only [Mcache.slabs, mem_append] at there ⊢
    tauto)]
  rfl

theorem addresses_few {addresses : List Nat} (distinct : addresses.Nodup)
    (named : ∀ address ∈ addresses, address = ptr ∨ 0 < address ∧ address < 2 ^ 32) : addresses.length ≤ 2 ^ 32 := by
  have within : addresses ⊆ ptr :: range' 1 (2 ^ 32 - 1) := by
    intro address there
    rw [mem_cons, mem_range'_1]
    have := named address there
    omega
  have few := (subperm_of_subset distinct within).length_le
  rw [length_cons, length_range'] at few
  omega

end Sizes

/-- A slab has bytes. -/
theorem bufferSize_pos {cache : Mcache} (positive : 0 < cache.size) (fits : cache.size < 2 ^ 32) :
    0 < cache.bufferSize := by
  apply Nat.pos_of_ne_zero
  intro wraps
  have coprime : Nat.Coprime (2 ^ 32) numObjects := Nat.Coprime.pow_left 32 (by decide)
  have divides : 2 ^ 32 ∣ cache.size := coprime.dvd_of_dvd_mul_left (Nat.dvd_of_mod_eq_zero wraps)
  exact absurd (Nat.le_of_dvd positive divides) (Nat.not_le_of_lt fits)

/-- A cache gives back what it took exactly when it was never asked for an object. -/
theorem mcache_destroy_conserves (size align ptr : Nat) (ctor dtor : Bool) (cache : Mcache)
    (created : (mcacheCreate size align ctor dtor (some ptr)).1 = some cache) (positive : 0 < cache.size)
    (fits : cache.size < 2 ^ 32) (calls : List Call) (s : Client) (ran : run lifeStep (.create cache) calls = some s) :
    Conserved cache (s.effects ++ mcacheDestroy s.cache) ↔ ∀ page node, .alloc page node ∉ calls := by
  have shape : cache = ⟨ptr, max size align, ctor, dtor, [], [], []⟩ := (Option.some.inj created).symm
  have start : (Client.create cache).Traced cache.bufferSize (Mm.sizeToOrder cache.pages) := by
    refine ⟨rfl, rfl, ?_, ?_, nodup_singleton _, ?_, ?_, ⟨rfl, rfl⟩, fun _ => rfl⟩
    · simp [Client.create, Mcache.slabs, shape]
    · simp [Client.create, pagesAcquired]
    · simp [Client.create, heapAcquired]
    · simp [Client.create, cachedTotal, pagesAcquired]
  obtain ⟨traced, acquires⟩ := run_acquires calls start ran
  have nothing : pagesAcquired s.effects = [] ↔ ∀ page node, .alloc page node ∉ calls := by
    rw [acquires]
    exact and_iff_right rfl
  rw [← nothing]
  obtain ⟨none, unnamed, released, balanced⟩ := destroy_effects s.cache
  constructor
  · intro conserved
    by_contra some
    have bytes := bufferSize_pos positive fits
    have pages : (pagesReleased (mcacheDestroy s.cache)).Perm (pagesAcquired s.effects) := by
      have whole := conserved.pages
      rwa [pagesReleased_append, traced.released.1, pagesAcquired_append, none, nil_append, append_nil] at whole
    rcases Nat.lt_or_ge cache.bufferSize 2 with one | more
    · -- The orders are equal for slabs of one byte, but the counter of the bytes does not wrap around.
      have single : cache.bufferSize = 1 := Nat.le_antisymm (Nat.le_of_lt_succ one) bytes
      rw [single] at traced
      have total := conserved.cached
      rw [cachedTotal_append, destroy_cached s.cache fun slab there => (traced.slabs slab there).1,
        traced.cached, Nat.mul_one] at total
      have heap := conserved.heap.length_eq
      rw [heapReleased_append, traced.released.2, heapAcquired_append, unnamed, nil_append, append_nil, balanced,
        pages.length_eq] at heap
      have few := addresses_few traced.distinct traced.named
      rw [show (0 : BitVec 32) = 0#32 from rfl, BitVec.add_zero] at total
      have zero := congrArg BitVec.toNat total
      rw [BitVec.toNat_ofNat, Nat.mod_eq_of_lt (by omega)] at zero
      exact some (List.length_eq_zero_iff.mp zero)
    · obtain ⟨page, there⟩ := List.exists_mem_of_ne_nil _ some
      obtain ⟨slab, known, order⟩ := released page (pages.mem_iff.mpr there)
      rw [(traced.slabs slab known).1, traced.orders page there] at order
      exact order_of_bytes_ne cache more order.symm
  · intro empty
    have gone : s.cache.slabs = [] := by
      apply List.eq_nil_iff_forall_not_mem.mpr
      exact fun slab there => (traced.slabs slab there).2 empty
    have left : mcacheDestroy s.cache = [.kfree s.cache.ptr] := by
      unfold Mcache.slabs at gone
      simp only [List.append_eq_nil_iff] at gone
      unfold mcacheDestroy
      rw [gone.1.1, gone.1.2, gone.2]
      rfl
    rw [traced.idle empty, left]
    exact ⟨.refl _, .refl _, rfl, fun _ object absent => absurd absent List.not_mem_nil⟩

/-- A cache that is given pointers to free and is never asked for an object gives back its own memory. -/
theorem mcache_destroy_conserves_unused :
    Conserved ⟨8, 32, true, true, [], [], []⟩
        ([.kzalloc 8] ++ mcacheDestroy ⟨8, 32, true, true, [], [], []⟩) ↔
      ∀ page node, .alloc page node ∉ [Call.free 8, Call.free Mm.nullPage] :=
  mcache_destroy_conserves 32 4 8 true true _ rfl (by decide) (by decide)
    [.free 8, .free Mm.nullPage] ⟨⟨8, 32, true, true, [], [], []⟩, [], [.kzalloc 8]⟩ (by decide)

/-- One slab of objects of 32 bytes takes 1 page and gives 256 pages back, and without pages the count of the bytes does
not return either. -/
theorem mcache_destroy_releases_more_pages :
    (∃ s, run lifeStep (.create ⟨8, 32, false, false, [], [], []⟩) [.alloc (some 4096) (some 64)] = some s ∧
      ¬Conserved ⟨8, 32, false, false, [], [], []⟩ (s.effects ++ mcacheDestroy s.cache) ∧
      pagesAcquired s.effects = [(4096, 0)] ∧ pagesReleased (mcacheDestroy s.cache) = [(4096, 8)] ∧
      cachedTotal (s.effects ++ mcacheDestroy s.cache) = 152) ∧
    ∃ s, run lifeStep (.create ⟨8, 32, false, false, [], [], []⟩) [.alloc none (some 64)] = some s ∧
      s.live = [Mm.nullPage] ∧ cachedTotal (s.effects ++ mcacheDestroy s.cache) = 152 := by
  refine ⟨⟨_, rfl, fun conserved => ?_, by decide, by decide, by decide⟩, _, rfl, by decide, by decide⟩
  exact absurd conserved.cached (by decide)

end Phabos.Slab
