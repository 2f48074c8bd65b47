import Phabos.Proof.Kernel.SlabInvariant

namespace Phabos.Slab
open Library List

/-- A buffer that an allocation brings starts on a page. -/
def Call.PageAligned : Call → Prop
  | .alloc page _ => ∀ address ∈ page, PAGE_SIZE ∣ address
  | .free _ => True

/-- A slab has its objects in pages of the address space. -/
structure McacheSlab.Paged (bytes : Nat) (slab : McacheSlab) : Prop where
  aligned : PAGE_SIZE ∣ slab.buffer
  nonNull : 0 < slab.buffer
  inside : slab.buffer + bytes ≤ 2 ^ 32
  size : slab.size = bytes

/-- All slabs of a cache with objects of one size are paged. -/
structure Mcache.Paged (size : Nat) (cache : Mcache) : Prop where
  size : cache.size = size
  slabs : ∀ slab ∈ cache.slabs, slab.Paged cache.bufferSize

section Paged
variable {cache : Mcache} {slab : McacheSlab} {size ptr object : Nat}

theorem mem_slabs : slab ∈ cache.slabs ↔
    slab ∈ cache.emptySlabs ∨ slab ∈ cache.partialSlabs ∨ slab ∈ cache.fullSlabs := by
  unfold Mcache.slabs
  rw [mem_append, mem_append, or_assoc]

theorem McacheSlab.Paged.slabAllocObject {bytes : Nat} (paged : slab.Paged bytes) (cache : Mcache) :
    (slabAllocObject cache slab).2.Paged bytes := by
  unfold Slab.slabAllocObject
  split
  · exact paged
  · exact { paged with }

theorem slabAllocObject_index (given : (slabAllocObject cache slab).1 = some object) :
    ∃ index < cache.numObject slab, object = cache.object slab.buffer index := by
  unfold slabAllocObject at given
  split at given
  · cases given
  · rename_i index found
    obtain ⟨bound, -, -⟩ := List.findIdx?_eq_some_iff_getElem.mp found
    rw [length_take] at bound
    exact ⟨index, by omega, (Option.some.inj given).symm⟩

theorem Mcache.Paged.allocPartial (paged : cache.Paged size) (object : Nat) :
    cache.allocPartial.2.Paged size ∧ (cache.allocPartial.1 = some object →
      ∃ slab, slab.Paged cache.bufferSize ∧ ∃ index < cache.numObject slab,
        object = cache.object slab.buffer index) := by
  unfold Mcache.allocPartial
  cases shape : cache.partialSlabs with
  | nil => exact ⟨paged, fun given => by cases given⟩
  | cons slab rest =>
    have first : slab.Paged cache.bufferSize :=
      paged.slabs slab (mem_slabs.mpr (.inr (.inl (shape ▸ mem_cons_self))))
    have other {one : McacheSlab} (there : one ∈ rest) : one.Paged cache.bufferSize :=
      paged.slabs one (mem_slabs.mpr (.inr (.inl (shape ▸ mem_cons_of_mem _ there))))
    have taken := first.slabAllocObject cache
    dsimp only
    split
    · refine ⟨⟨paged.size, fun one there => ?_⟩, fun given => ⟨slab, first, slabAllocObject_index given⟩⟩
      rcases mem_slabs.mp there with inside | inside | inside
      · exact paged.slabs one (mem_slabs.mpr (.inl inside))
      · exact other inside
      · rcases mem_append.mp inside with full | last
        · exact paged.slabs one (mem_slabs.mpr (.inr (.inr full)))
        · exact mem_singleton.mp last ▸ taken
    · refine ⟨⟨paged.size, fun one there => ?_⟩, fun given => ⟨slab, first, slabAllocObject_index given⟩⟩
      rcases mem_slabs.mp there with inside | inside | inside
      · exact paged.slabs one (mem_slabs.mpr (.inl inside))
      · rcases mem_cons.mp inside with rfl | later
        · exact taken
        · exact other later
      · exact paged.slabs one (mem_slabs.mpr (.inr (.inr inside)))

theorem Mcache.Paged.add (paged : cache.Paged size) (new : slab.Paged cache.bufferSize) :
    (cache.add slab).Paged size := by
  refine ⟨paged.size, fun one there => ?_⟩
  rcases mem_cons.mp (slabs_add.mem_iff.mp there) with rfl | known
  · exact new
  · exact paged.slabs one known

theorem mcacheAllocateNewSlab_paged {page node : Option Nat}
    (fresh : ∀ address ∈ page, 0 < address ∧ address + cache.bufferSize ≤ 2 ^ 32)
    (aligned : ∀ address ∈ page, PAGE_SIZE ∣ address)
    (made : (mcacheAllocateNewSlab cache page node).1 = some slab) : slab.Paged cache.bufferSize := by
  unfold mcacheAllocateNewSlab at made
  cases page with
  | none => cases made
  | some buffer =>
    cases node with
    | none => cases made
    | some ptr =>
      obtain rfl := Option.some.inj made
      obtain ⟨positive, inside⟩ := fresh buffer rfl
      exact ⟨aligned buffer rfl, positive, inside, rfl⟩

theorem mcacheMoveEmptySlabToPartialList_paged {page node : Option Nat} {next : Mcache} (paged : cache.Paged size)
    (fresh : ∀ address ∈ page, 0 < address ∧ address + cache.bufferSize ≤ 2 ^ 32)
    (aligned : ∀ address ∈ page, PAGE_SIZE ∣ address)
    (moved : (mcacheMoveEmptySlabToPartialList cache page node).1 = some next) :
    next.Paged size ∧ next.bufferSize = cache.bufferSize := by
  unfold mcacheMoveEmptySlabToPartialList at moved
  split at moved
  · rename_i slab rest shape
    obtain rfl := Option.some.inj moved
    refine ⟨⟨paged.size, fun one there => paged.slabs one (mem_slabs.mpr ?_)⟩, rfl⟩
    rcases mem_slabs.mp there with inside | inside | inside
    · exact .inl (shape ▸ mem_cons_of_mem _ inside)
    · rcases mem_append.mp inside with before | last
      · exact .inr (.inl before)
      · exact .inl (shape ▸ mem_singleton.mp last ▸ mem_cons_self)
    · exact .inr (.inr inside)
  · obtain ⟨slab, made, rfl⟩ := Option.map_eq_some_iff.mp moved
    exact ⟨paged.add (mcacheAllocateNewSlab_paged fresh aligned made), rfl⟩

theorem Mcache.Paged.mcacheAlloc {page node : Option Nat} (paged : cache.Paged size) (object : Nat)
    (fresh : ∀ address ∈ page, 0 < address ∧ address + cache.bufferSize ≤ 2 ^ 32)
    (aligned : ∀ address ∈ page, PAGE_SIZE ∣ address) :
    (mcacheAlloc cache page node).2.1.Paged size ∧
      ((mcacheAlloc cache page node).1 = some object →
        ∃ slab : McacheSlab, slab.Paged cache.bufferSize ∧ ∃ index < slab.size / size,
          object = slab.buffer + size * index) := by
  have allocated {middle : Mcache} (kept : middle.Paged size) (same : middle.bufferSize = cache.bufferSize)
      (given : middle.allocPartial.1 = some object) : ∃ slab : McacheSlab, slab.Paged cache.bufferSize ∧
        ∃ index < slab.size / size, object = slab.buffer + size * index := by
    obtain ⟨slab, of, index, bound, place⟩ := (kept.allocPartial object).2 given
    unfold Mcache.numObject at bound
    unfold Mcache.object at place
    rw [kept.size] at bound place
    exact ⟨slab, same ▸ of, index, bound, place⟩
  unfold Slab.mcacheAlloc
  split
  · cases moved : mcacheMoveEmptySlabToPartialList cache page node with
    | mk result effects =>
      cases result with
      | none => exact ⟨paged, fun given => by cases given⟩
      | some middle =>
        obtain ⟨kept, same⟩ := mcacheMoveEmptySlabToPartialList_paged paged fresh aligned
          (congrArg Prod.fst moved)
        exact ⟨(kept.allocPartial object).1, allocated kept same⟩
  · exact ⟨(paged.allocPartial object).1, allocated paged rfl⟩

theorem Mcache.Paged.put (paged : cache.Paged size) (new : slab.Paged cache.bufferSize) :
    (cache.put slab).Paged size := by
  obtain ⟨-, same, perm⟩ := put_perm cache slab
  refine ⟨same.trans paged.size, fun one there => ?_⟩
  have bytes : (cache.put slab).bufferSize = cache.bufferSize := by
    unfold Mcache.bufferSize
    rw [same]
  rw [bytes]
  rcases mem_cons.mp (perm.mem_iff.mp there) with rfl | known
  · exact new
  · exact paged.slabs one known

theorem Mcache.Paged.mcacheFree (paged : cache.Paged size) (ptr : Nat) : (mcacheFree cache ptr).Paged size := by
  have freed {one : McacheSlab} (known : one ∈ cache.slabs) :
      (slabFreeObject cache one ptr).Paged cache.bufferSize := by
    have before := paged.slabs one known
    exact { before with }
  unfold Slab.mcacheFree
  split
  · exact paged
  · split
    · rename_i slab found
      refine Mcache.Paged.put ⟨paged.size, fun one there => paged.slabs one (mem_slabs.mpr ?_)⟩
        (freed (mem_slabs.mpr (.inr (.inl (List.mem_of_find?_eq_some found)))))
      exact (mem_slabs.mp there).imp_right (Or.imp_left mem_of_mem_eraseP)
    · split
      · rename_i slab found
        refine Mcache.Paged.put ⟨paged.size, fun one there => paged.slabs one (mem_slabs.mpr ?_)⟩
          (freed (mem_slabs.mpr (.inr (.inr (List.mem_of_find?_eq_some found)))))
        exact (mem_slabs.mp there).imp_right (Or.imp_right mem_of_mem_eraseP)
      · exact paged

/-- A call with aligned pages keeps the slabs aligned. -/
theorem Mcache.Paged.step {s next : Client} {call : Call} (paged : s.cache.Paged size)
    (aligned : call.PageAligned) (stepped : step s call = some next) : next.cache.Paged size := by
  cases call with
  | alloc page node =>
    simp only [Slab.step, Option.ite_none_right_eq_some] at stepped
    obtain ⟨fresh, same⟩ := stepped
    obtain rfl := Option.some.inj same
    exact (paged.mcacheAlloc 0 (fun address there =>
      ⟨(fresh.1 address there).1, (fresh.1 address there).2.1⟩) aligned).1
  | free ptr =>
    obtain ⟨-, rfl⟩ := Option.ite_some_none_eq_some.mp stepped
    exact paged.mcacheFree ptr

end Paged

section Unaligned
variable {cache : Mcache}

/-- The slab on the first page, with its first objects taken or not. -/
def Mcache.firstSlab (cache : Mcache) (node : Nat) (refcount : BitVec 32) (taken : Bool) : McacheSlab :=
  ⟨node, cache.bufferSize, PAGE_SIZE, refcount, taken :: List.replicate 7 false⟩

theorem slabAllocObject_firstSlab (positive : 0 < cache.size) (room : 2 * cache.size ≤ cache.bufferSize) (node : Nat) :
    slabAllocObject cache (cache.firstSlab node 0 false) = (some PAGE_SIZE, cache.firstSlab node 1 true) ∧
      (slabAllocObject cache (cache.firstSlab node 1 true)).1 = some (PAGE_SIZE + cache.size) := by
  obtain ⟨more, many⟩ : ∃ more, cache.bufferSize / cache.size = more + 2 :=
    ⟨_, (Nat.sub_add_cancel ((Nat.le_div_iff_mul_le positive).mpr room)).symm⟩
  unfold slabAllocObject Mcache.numObject Mcache.object Mcache.firstSlab
  simp [many, replicate_succ, List.findIdx?_cons]

/-- The first object of a slab is at its start. -/
theorem mcacheAlloc_first (needs : cache.needsSlab) (positive : 0 < cache.size)
    (room : 2 * cache.size ≤ cache.bufferSize) (node : Nat) :
    (mcacheAlloc cache (some PAGE_SIZE) (some node)).1 = some PAGE_SIZE ∧
      (mcacheAlloc cache (some PAGE_SIZE) (some node)).2.1 =
        { cache with partialSlabs := [cache.firstSlab node 1 true] } := by
  have many : ¬1 = cache.bufferSize / cache.size := by
    have two : 2 ≤ cache.bufferSize / cache.size := (Nat.le_div_iff_mul_le positive).mpr room
    omega
  have made : (mcacheAllocateNewSlab cache (some PAGE_SIZE) (some node)).1 =
      some (cache.firstSlab node 0 false) := rfl
  have taken := (slabAllocObject_firstSlab positive room node).1
  have allocated : (cache.add (cache.firstSlab node 0 false)).allocPartial =
      (some PAGE_SIZE, { cache with partialSlabs := [cache.firstSlab node 1 true] }) := by
    have same : slabAllocObject (cache.add (cache.firstSlab node 0 false)) (cache.firstSlab node 0 false) =
        slabAllocObject cache (cache.firstSlab node 0 false) := rfl
    unfold Mcache.allocPartial
    unfold Mcache.add at same ⊢
    rw [needs.1] at same ⊢
    dsimp only [nil_append]
    rw [nil_append] at same
    rw [same, taken]
    exact if_neg many
  unfold mcacheAlloc
  rw [if_pos needs.1, mcacheMove_of_needs needs, made]
  exact ⟨congrArg Prod.fst allocated, congrArg Prod.snd allocated⟩

/-- The second object of a slab is one object size behind the first. -/
theorem mcacheAlloc_second (positive : 0 < cache.size) (room : 2 * cache.size ≤ cache.bufferSize) (node : Nat) :
    (mcacheAlloc { cache with partialSlabs := [cache.firstSlab node 1 true] } none none).1 =
      some (PAGE_SIZE + cache.size) := by
  have taken := (slabAllocObject_firstSlab positive room node).2
  unfold mcacheAlloc Mcache.allocPartial
  rw [if_neg (cons_ne_nil _ _)]
  dsimp only
  split
  · exact taken
  · exact taken

end Unaligned

/-- Every object of a cache is aligned in every run exactly when the alignment divides the size of an object
of the cache, or a slab has room for one object at most, or no page has room for a slab. -/
theorem mcache_alloc_aligned (size align ptr : Nat) (ctor dtor : Bool) (cache : Mcache)
    (created : (mcacheCreate size align ctor dtor (some ptr)).1 = some cache)
    (power : ∃ order, align = 2 ^ order) (small : align ≤ PAGE_SIZE) :
    (∀ calls s page node object, run step (.create cache) calls = some s →
      (∀ call ∈ calls, call.PageAligned) → (Call.alloc page node).PageAligned → s.Fresh page node →
      (mcacheAlloc s.cache page node).1 = some object → align ∣ object) ↔
        align ∣ max size align ∨ cache.bufferSize < 2 * cache.size ∨ 2 ^ 32 < PAGE_SIZE + cache.bufferSize := by
  have shape : cache = ⟨ptr, max size align, ctor, dtor, [], [], []⟩ := (Option.some.inj created).symm
  have stride : cache.size = max size align := by rw [shape]
  obtain ⟨order, rfl⟩ := power
  have page : 2 ^ order ∣ PAGE_SIZE := by
    have eighth : PAGE_SIZE = 2 ^ 8 := rfl
    rw [eighth] at small ⊢
    exact Nat.pow_dvd_pow 2 ((Nat.pow_le_pow_iff_right (by decide)).mp small)
  have positive : 0 < cache.size := by
    rw [stride]
    exact Nat.lt_of_lt_of_le (Nat.two_pow_pos order) (Nat.le_max_right ..)
  have needs : cache.needsSlab := by
    rw [shape]
    exact ⟨rfl, rfl⟩
  constructor
  · intro aligned
    by_contra broken
    obtain ⟨different, room, fits⟩ : ¬2 ^ order ∣ max size (2 ^ order) ∧ 2 * cache.size ≤ cache.bufferSize ∧
        PAGE_SIZE + cache.bufferSize ≤ 2 ^ 32 := by
      rw [not_or, not_or, Nat.not_lt, Nat.not_lt] at broken
      exact broken
    obtain ⟨first, after⟩ := mcacheAlloc_first needs positive room (cache.ptr + 1)
    have fresh : (Client.create cache).Fresh (some PAGE_SIZE) (some (cache.ptr + 1)) := by
      refine ⟨fun address there => ?_, fun address there => ?_⟩
      · obtain rfl := Option.some.inj there
        exact ⟨by decide, fits, fun other none => absurd none List.not_mem_nil⟩
      · obtain rfl := Option.some.inj there
        exact ⟨Nat.succ_pos _, fun known => absurd (List.mem_singleton.mp known) (Nat.succ_ne_self _)⟩
    have stepped : step (.create cache) (.alloc (some PAGE_SIZE) (some (cache.ptr + 1))) =
        some ⟨{ cache with partialSlabs := [cache.firstSlab (cache.ptr + 1) 1 true] }, [PAGE_SIZE],
          .kzalloc cache.ptr :: (mcacheAlloc cache (some PAGE_SIZE) (some (cache.ptr + 1))).2.2⟩ := by
      unfold step
      dsimp only
      rw [if_pos fresh]
      dsimp only [Client.create]
      rw [first, after]
      rfl
    have nothing (s : Client) : s.Fresh none none :=
      ⟨fun address there => absurd there (Option.not_mem_none address),
        fun address there => absurd there (Option.not_mem_none address)⟩
    have calledAligned : ∀ call ∈ [Call.alloc (some PAGE_SIZE) (some (cache.ptr + 1))], call.PageAligned := by
      intro call there
      obtain rfl := List.mem_singleton.mp there
      intro address there
      obtain rfl := Option.some.inj there
      exact Nat.dvd_refl _
    have callAligned : (Call.alloc none none).PageAligned :=
      fun address there => absurd there (Option.not_mem_none address)
    have unaligned := aligned _ _ none none _ (by rw [run_cons, stepped]; rfl) calledAligned callAligned
      (nothing _) (mcacheAlloc_second positive room (cache.ptr + 1))
    rw [stride] at unaligned
    exact different ((Nat.dvd_add_right page).mp unaligned)
  · intro condition calls s pages node object ran calledAligned callAligned fresh given
    have start : (Client.create cache).cache.Paged cache.size := by
      refine ⟨rfl, fun slab there => ?_⟩
      change slab ∈ cache.slabs at there
      rw [shape] at there
      cases there
    have paged : s.cache.Paged cache.size := run_invariant_of_guarded (fun s => s.cache.Paged cache.size) start
      (.of_forall fun call there _ => calledAligned call there) ran fun kept => kept.step
    have bytes : s.cache.bufferSize = cache.bufferSize := by
      unfold Mcache.bufferSize
      rw [paged.size]
    obtain ⟨slab, of, index, bound, rfl⟩ := (paged.mcacheAlloc _ (fun address there =>
      ⟨(fresh.1 address there).1, (fresh.1 address there).2.1⟩) callAligned).2 given
    have base : 2 ^ order ∣ slab.buffer := Nat.dvd_trans page of.aligned
    rcases condition with divides | single | large
    · rw [← stride] at divides
      exact Nat.dvd_add base (Nat.dvd_trans divides (Nat.dvd_mul_right ..))
    · rw [of.size, bytes] at bound
      have few : cache.bufferSize / cache.size < 2 := Nat.div_lt_of_lt_mul (Nat.mul_comm .. ▸ single)
      obtain rfl : index = 0 := by omega
      exact base
    · have first : PAGE_SIZE ≤ slab.buffer := Nat.le_of_dvd of.nonNull of.aligned
      have last := of.inside
      rw [bytes] at last
      omega

/-- In a cache of objects of 32 bytes aligned on 4 bytes every object is aligned. -/
theorem mcache_alloc_aligned_testCache :
    (∀ calls s page node object, run step (.create ⟨8, 32, false, false, [], [], []⟩) calls = some s →
      (∀ call ∈ calls, call.PageAligned) → (Call.alloc page node).PageAligned → s.Fresh page node →
      (mcacheAlloc s.cache page node).1 = some object → 4 ∣ object) ↔
        4 ∣ max 32 4 ∨ Mcache.bufferSize ⟨8, 32, false, false, [], [], []⟩ < 2 * 32 ∨
          2 ^ 32 < PAGE_SIZE + Mcache.bufferSize ⟨8, 32, false, false, [], [], []⟩ :=
  mcache_alloc_aligned 32 4 8 false false ⟨8, 32, false, false, [], [], []⟩ rfl ⟨2, rfl⟩ (by decide)

/-- The second object of 24 bytes that asks for an alignment on 16 bytes starts 24 bytes after a page. -/
theorem mcache_alloc_ignores_align :
    ∃ cache s, (mcacheCreate 24 16 false false (some 8)).1 = some cache ∧
      run step (.create cache) [.alloc (some PAGE_SIZE) (some 9)] = some s ∧
      (Call.alloc (some PAGE_SIZE) (some 9)).PageAligned ∧
      (mcacheAlloc s.cache none none).1 = some 280 ∧ ¬16 ∣ 280 := by
  refine ⟨_, _, rfl, rfl, fun address there => ?_, rfl, by decide⟩
  obtain rfl := Option.some.inj there
  exact Nat.dvd_refl _

end Phabos.Slab
