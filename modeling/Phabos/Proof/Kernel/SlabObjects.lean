import Phabos.Proof.Kernel.SlabInvariant

namespace Phabos.Slab
open List Option

/-- Every object of every slab has been constructed. -/
structure Client.Built (s : Client) : Prop where
  ctor : s.cache.ctor = true
  whole : ∀ slab ∈ s.cache.slabs, ∀ object < numObjects,
    slab.address s.cache.size object ∈ constructed s.effects

section Objects
variable {s next : Client} {cache : Mcache} {page node : Option Nat} {object ptr : Nat}

theorem allocPartial_ctor (cache : Mcache) : cache.allocPartial.2.ctor = cache.ctor := by
  unfold Mcache.allocPartial
  split
  · rfl
  · dsimp only
    split
    · rfl
    · rfl

theorem mcacheAlloc_ctor (cache : Mcache) (page node : Option Nat) :
    (mcacheAlloc cache page node).2.1.ctor = cache.ctor := by
  unfold mcacheAlloc
  split
  · rename_i partials
    cases empties : cache.emptySlabs with
    | cons slab rest =>
      simp only [mcacheMoveEmptySlabToPartialList, empties]
      exact allocPartial_ctor _
    | nil =>
      rw [mcacheMove_of_needs ⟨partials, empties⟩]
      cases (mcacheAllocateNewSlab cache page node).1 with
      | none => rfl
      | some slab => exact allocPartial_ctor (cache.add slab)
  · exact allocPartial_ctor cache

theorem put_ctor (cache : Mcache) (slab : McacheSlab) : (cache.put slab).ctor = cache.ctor := by
  unfold Mcache.put
  split
  · rfl
  · rfl

theorem mcacheFree_ctor (cache : Mcache) (ptr : Nat) : (mcacheFree cache ptr).ctor = cache.ctor := by
  unfold mcacheFree
  split
  · rfl
  · split
    · exact put_ctor _ _
    · split
      · exact put_ctor _ _
      · rfl

theorem constructed_append (early late : List Effect) :
    constructed (early ++ late) = constructed early ++ constructed late := filterMap_append ..

theorem constructed_new {buffer : Nat} {slab : McacheSlab} {effects : List Effect} (there : page = some buffer)
    (gives : mcacheAllocateNewSlab cache page node = (some slab, effects)) (ctor : cache.ctor = true) :
    constructed effects = (range numObjects).map fun i => cache.object buffer i := by
  subst there
  cases node with
  | none => cases gives
  | some ptr =>
    obtain ⟨-, rfl⟩ := Prod.mk.inj gives
    rw [if_pos ctor, constructed_append]
    rfl

theorem room_of_whole (whole : cache.bufferSize = numObjects * cache.size) : cache.size ≤ cache.bufferSize := by
  rw [whole]
  exact Nat.le_mul_of_pos_left _ (by decide)

theorem Client.Accounted.alloc_pages (accounted : s.Accounted) (room : s.cache.size ≤ s.cache.bufferSize)
    (stepped : Slab.step s (.alloc page node) = some next) (given : (mcacheAlloc s.cache page node).1 = some object) :
    next.live = s.live ++ [object] ∧ object ∉ s.live ∧
      next.effects = s.effects ++ (mcacheAlloc s.cache page node).2.2 ∧
      ∀ acquired ∈ pagesAcquired (mcacheAlloc s.cache page node).2.2, s.cache.needsSlab ∧ page = some acquired.1 := by
  simp only [Slab.step, ite_none_right_eq_some] at stepped
  obtain ⟨fresh, same⟩ := stepped
  have outcome := accounted.outcome room fresh
  generalize mcacheAlloc s.cache page node = result at outcome same given
  cases outcome with
  | @reused after found allocates =>
    obtain rfl := some.inj same
    obtain rfl := some.inj given
    refine ⟨rfl, fun there => allocates.fresh ((accounted.live found).mp there), rfl, fun acquired there => ?_⟩
    cases there
  | @added after found buffer ptr slab effects needs there named gives none allocates =>
    obtain rfl := some.inj same
    obtain rfl := some.inj given
    obtain ⟨-, -, -, pages⟩ := acquired_new there named gives
    refine ⟨rfl, fun member => ?_, rfl, fun acquired member => ⟨needs, ?_⟩⟩
    · exact allocates.fresh ((live_add none).mpr ((accounted.live found).mp member))
    · rw [pages, mem_singleton] at member
      rw [there, member]
  | failed needs missing => cases given

theorem Client.Built.alloc (built : s.Built) (accounted : s.Accounted)
    (whole : s.cache.bufferSize = numObjects * s.cache.size)
    (stepped : Slab.step s (.alloc page node) = some next) (given : (mcacheAlloc s.cache page node).1 = some object) :
    next.Built ∧ ∀ new ∈ constructed (mcacheAlloc s.cache page node).2.2, new ∉ s.live := by
  have room := room_of_whole whole
  have effects := (accounted.alloc_pages room stepped given).2.2.1
  have kept := (accounted.step room stepped).2
  have ctor := mcacheAlloc_ctor s.cache page node
  simp only [Slab.step, ite_none_right_eq_some] at stepped
  obtain ⟨fresh, same⟩ := stepped
  have outcome := accounted.outcome room fresh
  generalize mcacheAlloc s.cache page node = result at outcome same given effects ctor
  cases outcome with
  | @reused after found allocates =>
    obtain rfl := some.inj same
    obtain ⟨-, buffers⟩ := allocates.retains.fields
    refine ⟨⟨ctor.trans built.ctor, fun slab there i bound => ?_⟩, fun new there => ?_⟩
    · obtain ⟨other, known, equal⟩ := buffers slab there
      have before := built.whole other known i bound
      rw [effects, append_nil, kept]
      unfold McacheSlab.address at before ⊢
      rwa [equal]
    · cases there
  | @added after found buffer ptr slab made needs there named gives none allocates =>
    obtain rfl := some.inj same
    obtain ⟨-, buffers⟩ := allocates.retains.fields
    obtain ⟨-, base, -, -⟩ := acquired_new there named gives
    have objects := constructed_new there gives built.ctor
    refine ⟨⟨ctor.trans built.ctor, fun kept' member i bound => ?_⟩, fun new member live => ?_⟩
    · obtain ⟨other, known, equal⟩ := buffers kept' member
      rw [effects, constructed_append, kept]
      rcases mem_cons.mp (slabs_add.mem_iff.mp known) with rfl | before
      · refine mem_append_right _ ?_
        rw [objects]
        refine mem_map.mpr ⟨i, mem_range.mpr bound, ?_⟩
        rw [McacheSlab.address, equal, base]
        rfl
      · refine mem_append_left _ ?_
        have constructed := built.whole other before i bound
        unfold McacheSlab.address at constructed ⊢
        rwa [equal]
    · rw [objects] at member
      obtain ⟨i, bound, rfl⟩ := mem_map.mp member
      obtain ⟨other, known, second, bit, same⟩ := (accounted.live _).mp live
      obtain ⟨counted, bytes⟩ := accounted.wellformed.sound.counted other known
      have inside := address_inside (counted.inside second bit)
      obtain ⟨order, acquired⟩ := accounted.pages other known
      have apart := (fresh.1 buffer there).2.2 _ acquired
      have last := Nat.mul_le_mul_left s.cache.size (Nat.succ_le_of_lt (mem_range.mp bound))
      have positive := accounted.wellformed.positive
      rw [Nat.mul_succ, Nat.mul_comm _ numObjects, ← whole] at last
      rw [bytes, ← same] at inside
      unfold Apart at apart
      unfold McacheSlab.address at same
      unfold Mcache.object at same inside
      omega
  | failed needs missing => cases given

theorem Client.Built.live (built : s.Built) (accounted : s.Accounted)
    (whole : s.cache.bufferSize = numObjects * s.cache.size) (live : ptr ∈ s.live) :
    ptr ∈ constructed s.effects := by
  obtain ⟨slab, known, i, bit, rfl⟩ := (accounted.live ptr).mp live
  obtain ⟨counted, bytes⟩ := accounted.wellformed.sound.counted slab known
  have bound := counted.inside i bit
  rw [bytes, whole, Nat.mul_div_cancel _ accounted.wellformed.positive] at bound
  exact built.whole slab known i bound

theorem Client.Built.free (built : s.Built) (accounted : s.Accounted) (live : ptr ∈ s.live)
    (stepped : Slab.step s (.free ptr) = some next) :
    next.Built ∧ next.live = s.live.erase ptr ∧ next.effects = s.effects := by
  obtain ⟨-, rfl⟩ := ite_some_none_eq_some.mp stepped
  have frees := mcacheFree_frees accounted.wellformed ((accounted.live ptr).mp live)
  obtain ⟨-, buffers⟩ := frees.retains.fields
  refine ⟨⟨(mcacheFree_ctor s.cache ptr).trans built.ctor, fun slab there i bound => ?_⟩, rfl, rfl⟩
  obtain ⟨other, known, equal⟩ := buffers slab there
  have before := built.whole other known i bound
  unfold McacheSlab.address at before ⊢
  rwa [equal, frees.retains.size]

theorem Client.Accounted.inside_pages (accounted : s.Accounted) (live : ptr ∈ s.live) :
    ∃ page ∈ pagesAcquired s.effects, page.1 ≤ ptr ∧ ptr + s.cache.size ≤ page.1 + s.cache.bufferSize := by
  obtain ⟨slab, known, i, bit, rfl⟩ := (accounted.live ptr).mp live
  obtain ⟨counted, bytes⟩ := accounted.wellformed.sound.counted slab known
  obtain ⟨order, acquired⟩ := accounted.pages slab known
  have inside := address_inside (counted.inside i bit)
  rw [bytes] at inside
  exact ⟨_, acquired, Nat.le_add_right _ _, inside⟩

end Objects

end Phabos.Slab
