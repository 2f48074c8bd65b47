import Phabos.Construction.Kernel.Mcache
import Phabos.Library.Counting

namespace Phabos.Slab
open Library List

section Slab
variable {size object ptr : Nat} {slab : McacheSlab}

/-- The address of an object of a slab. -/
def McacheSlab.address (size : Nat) (slab : McacheSlab) (object : Nat) : Nat := slab.buffer + size * object

/-- A pointer to an allocated object of a slab. -/
def McacheSlab.Live (size : Nat) (slab : McacheSlab) (ptr : Nat) : Prop :=
  ∃ object, slab.bitmap[object]? = some true ∧ ptr = slab.address size object

/-- The number of allocated objects of a slab. -/
def McacheSlab.used (slab : McacheSlab) : Nat := slab.bitmap.count true

/-- A slab has room for an object. Its bits are those of its objects, and it counts those that are set. -/
structure McacheSlab.Counted (size : Nat) (slab : McacheSlab) : Prop where
  nonzero : 0 < slab.buffer
  room : 0 < slab.size / size
  whole : slab.bitmap.length = 8 * bitmapSize
  fits : slab.size / size ≤ slab.bitmap.length
  inside : ∀ object : Nat, slab.bitmap[object]? = some true → object < slab.size / size
  refcount : slab.refcount = BitVec.ofNat 32 slab.used

/-- The slab after an object of it is allocated. -/
def McacheSlab.take (slab : McacheSlab) (object : Nat) : McacheSlab :=
  { slab with bitmap := slab.bitmap.set object true, refcount := slab.refcount + 1 }

/-- The slab after an object of it is freed. -/
def McacheSlab.give (slab : McacheSlab) (object : Nat) : McacheSlab :=
  { slab with bitmap := slab.bitmap.set object false, refcount := slab.refcount - 1 }

theorem address_inj (positive : 0 < size) {other : Nat}
    (same : slab.address size object = slab.address size other) : object = other := by
  unfold McacheSlab.address at same
  exact Nat.eq_of_mul_eq_mul_left positive (by omega)

theorem live_take (bound : object < slab.bitmap.length) :
    (slab.take object).Live size ptr ↔ slab.Live size ptr ∨ ptr = slab.address size object := by
  unfold McacheSlab.take
  constructor
  · rintro ⟨other, bit, rfl⟩
    by_cases same : object = other
    · exact .inr (by rw [same]; rfl)
    · refine .inl ⟨other, ?_, rfl⟩
      rwa [List.getElem?_set_ne same] at bit
  · rintro (⟨other, bit, rfl⟩ | rfl)
    · refine ⟨other, ?_, rfl⟩
      by_cases same : object = other
      · rw [← same, List.getElem?_set_self bound]
      · rwa [List.getElem?_set_ne same]
    · exact ⟨object, List.getElem?_set_self bound, rfl⟩

theorem live_give (positive : 0 < size) :
    (slab.give object).Live size ptr ↔ slab.Live size ptr ∧ ptr ≠ slab.address size object := by
  unfold McacheSlab.give
  constructor
  · rintro ⟨other, bit, rfl⟩
    have differs : object ≠ other := by
      rintro rfl
      rw [List.getElem?_set] at bit
      split at bit
      · split at bit <;> simp at bit
      · exact absurd rfl ‹_›
    rw [List.getElem?_set_ne differs] at bit
    exact ⟨⟨other, bit, rfl⟩, fun same => differs (address_inj positive same).symm⟩
  · rintro ⟨⟨other, bit, rfl⟩, differs⟩
    refine ⟨other, ?_, rfl⟩
    rw [List.getElem?_set_ne (fun same => differs (by rw [same]))]
    exact bit

theorem not_live_of_clear (positive : 0 < size) (bit : slab.bitmap[object]? = some false) :
    ¬slab.Live size (slab.address size object) := by
  rintro ⟨other, live, same⟩
  rw [← address_inj positive same, bit] at live
  cases live

theorem address_inside (bound : object < slab.size / size) :
    slab.address size object + size ≤ slab.buffer + slab.size := by
  have inside : size * (object + 1) ≤ size * (slab.size / size) := Nat.mul_le_mul_left _ bound
  have whole := Nat.mul_div_le slab.size size
  rw [Nat.mul_add] at inside
  unfold McacheSlab.address
  omega

theorem McacheSlab.Live.holds (positive : 0 < size) (counted : slab.Counted size)
    (live : slab.Live size ptr) : slab.holds ptr = true := by
  obtain ⟨object, bit, rfl⟩ := live
  have inside := address_inside (counted.inside object bit)
  unfold McacheSlab.holds
  simp only [Bool.and_eq_true, decide_eq_true_eq]
  refine ⟨Nat.le_add_right _ _, ?_⟩
  omega

theorem object_of_address (positive : 0 < size) (live : ptr = slab.address size object) :
    (ptr - slab.buffer) / size = object := by
  rw [live, McacheSlab.address, Nat.add_sub_cancel_left, Nat.mul_div_cancel_left _ positive]

theorem used_take (bit : slab.bitmap[object]? = some false) : (slab.take object).used = slab.used + 1 := by
  obtain ⟨bound, value⟩ := List.getElem?_eq_some_iff.mp bit
  unfold McacheSlab.used McacheSlab.take
  rw [count_set bound, value]
  simp

theorem used_give (bit : slab.bitmap[object]? = some true) : (slab.give object).used + 1 = slab.used := by
  obtain ⟨bound, value⟩ := List.getElem?_eq_some_iff.mp bit
  have positive : 0 < slab.bitmap.count true :=
    count_pos_iff.mpr (value ▸ getElem_mem bound)
  unfold McacheSlab.used McacheSlab.give
  rw [count_set bound, value]
  simp
  omega

section
variable (counted : slab.Counted size)
include counted

theorem McacheSlab.Counted.used_eq_take : slab.used = (slab.bitmap.take (slab.size / size)).count true := by
  have beyond : (slab.bitmap.drop (slab.size / size)).count true = 0 := by
    apply count_eq_zero.mpr
    intro there
    obtain ⟨index, bound, value⟩ := getElem_of_mem there
    have bit := counted.inside (slab.size / size + index) (by
      rw [← List.getElem?_drop, List.getElem?_eq_getElem bound, value])
    omega
  rw [McacheSlab.used, ← take_append_drop (slab.size / size) slab.bitmap, count_append, beyond]
  simp

theorem McacheSlab.Counted.used_le : slab.used ≤ slab.size / size := by
  rw [counted.used_eq_take]
  exact Nat.le_trans count_le_length (by rw [length_take]; exact Nat.min_le_left _ _)

theorem McacheSlab.Counted.refcount_toNat : slab.refcount.toNat = slab.used := by
  rw [counted.refcount, BitVec.toNat_ofNat]
  apply Nat.mod_eq_of_lt
  have bound := counted.used_le
  have fits := counted.fits
  rw [counted.whole] at fits
  have small : 8 * bitmapSize = 8 := rfl
  omega

theorem exists_free_object (room : slab.used < slab.size / size) :
    ∃ object < slab.size / size, slab.bitmap[object]? = some false ∧
      (slab.bitmap.take (slab.size / size)).findIdx? (! ·) = some object := by
  cases found : (slab.bitmap.take (slab.size / size)).findIdx? (! ·) with
  | none =>
    have all : ∀ bit ∈ slab.bitmap.take (slab.size / size), true = bit := by
      intro bit there
      have set := List.findIdx?_eq_none_iff.mp found bit there
      cases bit with
      | false => cases set
      | true => rfl
    rw [counted.used_eq_take, count_eq_length.mpr all, length_take,
      Nat.min_eq_left counted.fits] at room
    exact absurd room (Nat.lt_irrefl _)
  | some object =>
    obtain ⟨bound, bit, -⟩ := List.findIdx?_eq_some_iff_getElem.mp found
    rw [length_take] at bound
    refine ⟨object, by omega, ?_, rfl⟩
    rw [getElem_take] at bit
    rw [List.getElem?_eq_getElem (by omega)]
    simpa using bit

theorem McacheSlab.Counted.take (bound : object < slab.size / size) (bit : slab.bitmap[object]? = some false) :
    (slab.take object).Counted size where
  nonzero := counted.nonzero
  room := counted.room
  whole := by
    rw [McacheSlab.take, length_set]
    exact counted.whole
  fits := by
    rw [McacheSlab.take, length_set]
    exact counted.fits
  inside other set := by
    by_cases same : object = other
    · exact same ▸ bound
    · rw [McacheSlab.take, List.getElem?_set_ne same] at set
      exact counted.inside other set
  refcount := by
    rw [used_take bit, McacheSlab.take, counted.refcount]
    exact (BitVec.ofNat_add _ _).symm

theorem McacheSlab.Counted.give (bit : slab.bitmap[object]? = some true) :
    (slab.give object).Counted size where
  nonzero := counted.nonzero
  room := counted.room
  whole := by
    rw [McacheSlab.give, length_set]
    exact counted.whole
  fits := by
    rw [McacheSlab.give, length_set]
    exact counted.fits
  inside other set := by
    by_cases same : object = other
    · exact same ▸ counted.inside object bit
    · rw [McacheSlab.give, List.getElem?_set_ne same] at set
      exact counted.inside other set
  refcount := by
    rw [McacheSlab.give, counted.refcount, ← used_give bit, BitVec.ofNat_add]
    exact BitVec.add_sub_cancel _ _

end

end Slab

/-- The slabs of a cache count their objects and do not overlap. -/
structure Sound (size bytes : Nat) (slabs : List McacheSlab) : Prop where
  counted : ∀ slab ∈ slabs, slab.Counted size ∧ slab.size = bytes
  apart : slabs.Pairwise fun one other => Apart bytes one.buffer other.buffer

theorem Apart.symm {bytes one other : Nat} (apart : Apart bytes one other) : Apart bytes other one :=
  Or.symm apart

section Sound
variable {size bytes ptr : Nat} {slab : McacheSlab} {slabs others : List McacheSlab}

theorem Sound.perm (sound : Sound size bytes slabs) (perm : slabs.Perm others) : Sound size bytes others where
  counted slab there := sound.counted slab (perm.mem_iff.mpr there)
  apart := (perm.pairwise_iff Apart.symm).mp sound.apart

theorem Sound.replace {changed : McacheSlab} (sound : Sound size bytes (slab :: others))
    (counted : changed.Counted size) (same : changed.size = slab.size) (base : changed.buffer = slab.buffer) :
    Sound size bytes (changed :: others) where
  counted other there := by
    rcases mem_cons.mp there with rfl | later
    · exact ⟨counted, same.trans (sound.counted slab mem_cons_self).2⟩
    · exact sound.counted other (mem_cons_of_mem _ later)
  apart := by
    obtain ⟨first, rest⟩ := pairwise_cons.mp sound.apart
    refine pairwise_cons.mpr ⟨fun other there => ?_, rest⟩
    rw [base]
    exact first other there

theorem Sound.holds_unique (sound : Sound size bytes (slab :: others)) (held : slab.holds ptr = true) :
    ∀ other ∈ others, other.holds ptr = false := by
  intro other there
  have apart := (pairwise_cons.mp sound.apart).1 other there
  have one := (sound.counted slab mem_cons_self).2
  have two := (sound.counted other (mem_cons_of_mem _ there)).2
  unfold Apart at apart
  unfold McacheSlab.holds at held ⊢
  simp only [Bool.and_eq_true, decide_eq_true_eq] at held
  simp only [Bool.and_eq_false_iff, decide_eq_false_iff_not]
  omega

end Sound

/-- A pointer to an allocated object of a cache. -/
def Mcache.Live (cache : Mcache) (ptr : Nat) : Prop := ∃ slab ∈ cache.slabs, slab.Live cache.size ptr

/-- The slabs are sound, and each is on the list that says how many of its objects are allocated. -/
structure Mcache.Wellformed (cache : Mcache) : Prop where
  positive : 0 < cache.size
  sound : Sound cache.size cache.bufferSize cache.slabs
  empties : ∀ slab ∈ cache.emptySlabs, slab.used = 0
  partials : ∀ slab ∈ cache.partialSlabs, 0 < slab.used ∧ slab.used < cache.numObject slab
  fulls : ∀ slab ∈ cache.fullSlabs, slab.used = cache.numObject slab

/-- The slabs of a cache are still in memory where they were. -/
structure Retains (before after : Mcache) : Prop where
  ptr : after.ptr = before.ptr
  size : after.size = before.size
  slabs : (after.slabs.map fun slab => (slab.ptr, slab.buffer)).Perm
    (before.slabs.map fun slab => (slab.ptr, slab.buffer))

section Cache
variable {cache before after : Mcache} {slab changed : McacheSlab} {others rest : List McacheSlab}
  {ptr object : Nat}

theorem live_of_perm (perm : cache.slabs.Perm (slab :: others)) :
    cache.Live ptr ↔ slab.Live cache.size ptr ∨ ∃ other ∈ others, other.Live cache.size ptr := by
  unfold Mcache.Live
  constructor
  · rintro ⟨one, there, live⟩
    rcases mem_cons.mp (perm.mem_iff.mp there) with rfl | later
    · exact .inl live
    · exact .inr ⟨one, later, live⟩
  · rintro (live | ⟨one, there, live⟩)
    · exact ⟨slab, perm.mem_iff.mpr mem_cons_self, live⟩
    · exact ⟨one, perm.mem_iff.mpr (mem_cons_of_mem _ there), live⟩

theorem Retains.of_perm (own : after.ptr = before.ptr) (size : after.size = before.size)
    (was : before.slabs.Perm (slab :: others)) (now : after.slabs.Perm (changed :: others))
    (same : changed.ptr = slab.ptr) (base : changed.buffer = slab.buffer) : Retains before after where
  ptr := own
  size := size
  slabs := by
    refine (now.map _).trans (.trans ?_ (was.map _).symm)
    simp only [map_cons, same, base]
    exact .rfl

theorem Retains.bufferSize (retains : Retains before after) : after.bufferSize = before.bufferSize := by
  unfold Mcache.bufferSize
  rw [retains.size]

/-- An allocation makes one object live that was not. -/
structure Allocates (before after : Mcache) (ptr : Nat) : Prop where
  wellformed : after.Wellformed
  retains : Retains before after
  fresh : ¬before.Live ptr
  live : ∀ other, after.Live other ↔ before.Live other ∨ other = ptr

/-- The first slab of the partial list has room for an object. -/
structure Mcache.Ready (cache : Mcache) (slab : McacheSlab) (rest : List McacheSlab) : Prop where
  positive : 0 < cache.size
  sound : Sound cache.size cache.bufferSize cache.slabs
  shape : cache.partialSlabs = slab :: rest
  room : slab.used < cache.numObject slab
  empties : ∀ slab ∈ cache.emptySlabs, slab.used = 0
  partials : ∀ slab ∈ rest, 0 < slab.used ∧ slab.used < cache.numObject slab
  fulls : ∀ slab ∈ cache.fullSlabs, slab.used = cache.numObject slab

theorem Mcache.Ready.slabs_perm (ready : cache.Ready slab rest) :
    cache.slabs.Perm (slab :: (cache.emptySlabs ++ rest ++ cache.fullSlabs)) := by
  unfold Mcache.slabs
  rw [ready.shape, append_assoc, append_assoc]
  exact perm_middle

theorem Mcache.Ready.allocates (ready : cache.Ready slab rest) (bound : object < cache.numObject slab)
    (bit : slab.bitmap[object]? = some false) (own : after.ptr = cache.ptr) (size : after.size = cache.size)
    (perm : after.slabs.Perm (slab.take object :: (cache.emptySlabs ++ rest ++ cache.fullSlabs)))
    (empties : ∀ slab ∈ after.emptySlabs, slab.used = 0)
    (partials : ∀ slab ∈ after.partialSlabs, 0 < slab.used ∧ slab.used < cache.numObject slab)
    (fulls : ∀ slab ∈ after.fullSlabs, slab.used = cache.numObject slab) :
    Allocates cache after (cache.object slab.buffer object) := by
  have sound := ready.sound.perm ready.slabs_perm
  have counted := (sound.counted slab mem_cons_self).1
  have length : object < slab.bitmap.length := (List.getElem?_eq_some_iff.mp bit).1
  have retains : Retains cache after := .of_perm own size ready.slabs_perm perm rfl rfl
  have fresh : ¬cache.Live (cache.object slab.buffer object) := by
    rw [live_of_perm ready.slabs_perm]
    rintro (live | ⟨other, there, live⟩)
    · exact not_live_of_clear ready.positive bit live
    · have inside := address_inside bound
      have held : slab.holds (cache.object slab.buffer object) = true := by
        have positive := ready.positive
        unfold McacheSlab.holds Mcache.object
        unfold McacheSlab.address at inside
        simp only [Bool.and_eq_true, decide_eq_true_eq]
        omega
      have apart := sound.holds_unique held other there
      have other := live.holds ready.positive (sound.counted other (mem_cons_of_mem _ there)).1
      exact absurd (other.symm.trans apart) (by decide)
  refine ⟨⟨?_, ?_, empties, ?_, ?_⟩, retains, fresh, fun other => ?_⟩
  · exact size ▸ ready.positive
  · rw [retains.bufferSize, size]
    exact (sound.replace (counted.take bound bit) rfl rfl).perm perm.symm
  · unfold Mcache.numObject at partials ⊢
    rw [size]
    exact partials
  · unfold Mcache.numObject at fulls ⊢
    rw [size]
    exact fulls
  · rw [live_of_perm perm, live_of_perm ready.slabs_perm, size, live_take length]
    exact or_right_comm

theorem Mcache.Ready.allocPartial (ready : cache.Ready slab rest) :
    ∃ object, cache.allocPartial.1 = some object ∧ Allocates cache cache.allocPartial.2 object := by
  have counted := (ready.sound.counted slab (ready.slabs_perm.mem_iff.mpr mem_cons_self)).1
  obtain ⟨object, bound, bit, found⟩ := exists_free_object counted ready.room
  have taken : slabAllocObject cache slab =
      (some (cache.object slab.buffer object), slab.take object) := by
    unfold slabAllocObject Mcache.numObject
    rw [found]
    rfl
  have refcount := (counted.take bound bit).refcount_toNat
  unfold Mcache.allocPartial
  rw [ready.shape]
  simp only [taken]
  split
  · rename_i last
    refine ⟨_, rfl, ready.allocates bound bit rfl rfl ?_ ready.empties ready.partials ?_⟩
    · unfold Mcache.slabs
      rw [← append_assoc]
      exact perm_append_singleton _ _
    · intro other there
      rcases mem_append.mp there with before | new
      · exact ready.fulls other before
      · obtain rfl := mem_singleton.mp new
        exact refcount.symm.trans last
  · rename_i more
    refine ⟨_, rfl, ready.allocates bound bit rfl rfl ?_ ready.empties ?_ ready.fulls⟩
    · unfold Mcache.slabs
      rw [append_assoc, append_assoc]
      exact perm_middle
    · intro other there
      rcases mem_cons.mp there with rfl | later
      · have least : (slab.take object).used ≤ cache.numObject slab := (counted.take bound bit).used_le
        have differs : (slab.take object).used ≠ cache.numObject slab :=
          fun same => more (refcount.trans same)
        have used := used_take bit
        change 0 < (slab.take object).used ∧ (slab.take object).used < cache.numObject slab
        omega
      · exact ready.partials other later

theorem Mcache.Wellformed.ready (wellformed : cache.Wellformed) (shape : cache.partialSlabs = slab :: rest) :
    cache.Ready slab rest where
  positive := wellformed.positive
  sound := wellformed.sound
  shape := shape
  room := (wellformed.partials slab (shape ▸ mem_cons_self)).2
  empties := wellformed.empties
  partials other there := wellformed.partials other (shape ▸ mem_cons_of_mem _ there)
  fulls := wellformed.fulls

theorem Mcache.Wellformed.ready_of_empty (wellformed : cache.Wellformed)
    (shape : cache.emptySlabs = slab :: rest) (none : cache.partialSlabs = []) :
    Mcache.Ready { cache with emptySlabs := rest, partialSlabs := cache.partialSlabs ++ [slab] } slab [] := by
  have perm : Mcache.slabs { cache with emptySlabs := rest, partialSlabs := cache.partialSlabs ++ [slab] } |>.Perm
      cache.slabs := by
    unfold Mcache.slabs
    rw [shape, none]
    simp only [nil_append, append_nil, append_assoc, cons_append]
    exact perm_middle
  have member : slab ∈ cache.slabs := by
    unfold Mcache.slabs
    rw [shape]
    simp
  have room := (wellformed.sound.counted slab member).1.room
  refine ⟨wellformed.positive, wellformed.sound.perm perm.symm, by rw [none]; rfl, ?_, ?_, ?_,
    wellformed.fulls⟩
  · rw [wellformed.empties slab (shape ▸ mem_cons_self)]
    exact room
  · intro other there
    exact wellformed.empties other (shape ▸ mem_cons_of_mem _ there)
  · simp

theorem Allocates.of_perm {middle : Mcache} (allocates : Allocates middle after ptr) (own : middle.ptr = before.ptr)
    (size : middle.size = before.size) (perm : middle.slabs.Perm before.slabs) : Allocates before after ptr := by
  have same (other : Nat) : middle.Live other ↔ before.Live other := by
    unfold Mcache.Live
    rw [size]
    exact exists_congr fun slab => and_congr_left fun _ => perm.mem_iff
  refine ⟨allocates.wellformed, ⟨?_, ?_, ?_⟩, ?_, fun other => ?_⟩
  · exact allocates.retains.ptr.trans own
  · exact allocates.retains.size.trans size
  · exact allocates.retains.slabs.trans (perm.map _)
  · exact fun live => allocates.fresh ((same ptr).mpr live)
  · rw [allocates.live other, same other]

theorem newSlab_counted {buffer : Nat} (positive : 0 < cache.size) (room : cache.size ≤ cache.bufferSize)
    (nonzero : 0 < buffer) :
    McacheSlab.Counted cache.size
      ⟨ptr, cache.bufferSize, buffer, 0, replicate (8 * bitmapSize) false⟩ where
  nonzero := nonzero
  room := Nat.div_pos room positive
  whole := length_replicate
  fits := by
    have most : cache.bufferSize ≤ cache.size * numObjects := by
      rw [Nat.mul_comm]
      exact Nat.mod_le _ _
    have few := Nat.div_le_div_right (c := cache.size) most
    rw [Nat.mul_div_cancel_left _ positive] at few
    rw [length_replicate]
    exact Nat.le_trans few (by decide)
  inside object set := by
    rw [List.getElem?_replicate] at set
    split at set <;> simp at set
  refcount := by
    rw [McacheSlab.used, count_replicate]
    rfl

/-- A slab joins the partial list. -/
def Mcache.add (cache : Mcache) (slab : McacheSlab) : Mcache :=
  { cache with partialSlabs := cache.partialSlabs ++ [slab] }

theorem slabs_add : (cache.add slab).slabs.Perm (slab :: cache.slabs) := by
  unfold Mcache.slabs Mcache.add
  rw [← append_assoc, append_assoc _ [slab]]
  exact perm_middle

theorem live_add (none : slab.used = 0) : (cache.add slab).Live ptr ↔ cache.Live ptr := by
  rw [live_of_perm slabs_add]
  constructor
  · rintro (⟨object, bit, -⟩ | live)
    · have set : true ∈ slab.bitmap := mem_of_getElem? bit
      exact absurd (count_eq_zero.mp none) (not_not.mpr set)
    · exact live
  · exact .inr

theorem mcacheMove_of_needs (needs : cache.needsSlab) (page node : Option Nat) :
    mcacheMoveEmptySlabToPartialList cache page node =
      ((mcacheAllocateNewSlab cache page node).1.map cache.add, (mcacheAllocateNewSlab cache page node).2) := by
  unfold mcacheMoveEmptySlabToPartialList
  split
  · rename_i slab rest shape
    rw [needs.2] at shape
    cases shape
  · rfl

/-- What an allocation does: it uses a slab that it has, or a new one, or there is no new one. -/
inductive AllocOutcome (cache : Mcache) (page node : Option Nat) : Option Nat × Mcache × List Effect → Prop
  | reused {after : Mcache} {object : Nat} (allocates : Allocates cache after object) :
      AllocOutcome cache page node (some object, after, [])
  | added {after : Mcache} {object buffer ptr : Nat} {slab : McacheSlab} {effects : List Effect}
      (needs : cache.needsSlab) (there : page = some buffer) (named : node = some ptr)
      (gives : mcacheAllocateNewSlab cache page node = (some slab, effects)) (none : slab.used = 0)
      (allocates : Allocates (cache.add slab) after object) :
      AllocOutcome cache page node (some object, after, effects)
  | failed (needs : cache.needsSlab) (missing : page = none ∨ node = none) :
      AllocOutcome cache page node (none, cache, (mcacheAllocateNewSlab cache page node).2)

theorem mcacheAlloc_outcome {page node : Option Nat} (wellformed : cache.Wellformed)
    (room : cache.size ≤ cache.bufferSize)
    (fresh : ∀ address ∈ page, 0 < address ∧
      ∀ slab ∈ cache.slabs, Apart cache.bufferSize slab.buffer address) :
    AllocOutcome cache page node (mcacheAlloc cache page node) := by
  unfold mcacheAlloc
  cases partials : cache.partialSlabs with
  | cons slab rest =>
    obtain ⟨object, result, allocates⟩ := (wellformed.ready partials).allocPartial
    rw [if_neg (by simp), result]
    exact .reused allocates
  | nil =>
    rw [if_pos rfl]
    cases empties : cache.emptySlabs with
    | cons slab rest =>
      obtain ⟨object, result, allocates⟩ := (wellformed.ready_of_empty empties partials).allocPartial
      unfold mcacheMoveEmptySlabToPartialList
      simp only [empties]
      rw [result]
      refine .reused (allocates.of_perm rfl rfl ?_)
      unfold Mcache.slabs
      rw [empties, partials]
      simp only [append_nil, append_assoc, cons_append, nil_append]
      exact perm_middle
    | nil =>
      have needs : cache.needsSlab := ⟨partials, empties⟩
      rw [mcacheMove_of_needs needs]
      cases there : page with
      | none => exact .failed needs (.inl rfl)
      | some buffer =>
        cases named : node with
        | none => exact .failed needs (.inr rfl)
        | some ptr =>
          obtain ⟨nonzero, apart⟩ := fresh buffer there
          let slab : McacheSlab :=
            ⟨ptr, cache.bufferSize, buffer, 0, replicate (8 * bitmapSize) false⟩
          have counted : slab.Counted cache.size := newSlab_counted wellformed.positive room nonzero
          have none : slab.used = 0 := by
            change (replicate (8 * bitmapSize) false).count true = 0
            rw [count_replicate]
            rfl
          have ready : (cache.add slab).Ready slab [] := by
            refine ⟨wellformed.positive, .perm ⟨?_, ?_⟩ slabs_add.symm, ?_, ?_,
              wellformed.empties, by simp, wellformed.fulls⟩
            · intro other there
              rcases mem_cons.mp there with rfl | before
              · exact ⟨counted, rfl⟩
              · exact wellformed.sound.counted other before
            · exact pairwise_cons.mpr
                ⟨fun other there => (apart other there).symm, wellformed.sound.apart⟩
            · rw [Mcache.add, partials]
              rfl
            · rw [none]
              exact counted.room
          obtain ⟨object, result, allocates⟩ := ready.allocPartial
          have outcome := AllocOutcome.added needs rfl rfl rfl none allocates
          rw [← result] at outcome
          exact outcome

/-- A release makes one object free and keeps the others. -/
structure Frees (before after : Mcache) (ptr : Nat) : Prop where
  wellformed : after.Wellformed
  retains : Retains before after
  live : ∀ other, after.Live other ↔ before.Live other ∧ other ≠ ptr

theorem put_perm (cache : Mcache) (slab : McacheSlab) : (cache.put slab).ptr = cache.ptr ∧ (cache.put slab).size = cache.size ∧
    (cache.put slab).slabs.Perm (slab :: cache.slabs) := by
  unfold Mcache.put Mcache.slabs
  split
  · refine ⟨rfl, rfl, ?_⟩
    rw [append_assoc, append_assoc, append_assoc]
    exact perm_middle
  · refine ⟨rfl, rfl, ?_⟩
    rw [← append_assoc, append_assoc _ [_]]
    exact perm_middle

theorem put_frees {middle : Mcache} (wellformed : cache.Wellformed) (perm : cache.slabs.Perm (slab :: middle.slabs))
    (own : middle.ptr = cache.ptr) (size : middle.size = cache.size)
    (empties : ∀ slab ∈ middle.emptySlabs, slab.used = 0)
    (partials : ∀ slab ∈ middle.partialSlabs, 0 < slab.used ∧ slab.used < cache.numObject slab)
    (fulls : ∀ slab ∈ middle.fullSlabs, slab.used = cache.numObject slab) (held : slab.holds ptr = true)
    (live : cache.Live ptr) :
    Frees cache (middle.put (slabFreeObject cache slab ptr)) ptr := by
  have sound := wellformed.sound.perm perm
  have counted := (sound.counted slab mem_cons_self).1
  have elsewhere : ∀ other ∈ middle.slabs, ¬other.Live cache.size ptr := by
    intro other there live
    have holds := live.holds wellformed.positive (sound.counted other (mem_cons_of_mem _ there)).1
    rw [sound.holds_unique held other there] at holds
    cases holds
  obtain ⟨object, bit, at_⟩ : slab.Live cache.size ptr := by
    rcases (live_of_perm perm).mp live with here | ⟨other, there, live⟩
    · exact here
    · exact absurd live (elsewhere other there)
  have given : slabFreeObject cache slab ptr = slab.give object := by
    unfold slabFreeObject McacheSlab.give
    rw [object_of_address wellformed.positive at_]
  have left := used_give bit
  have bound : slab.used ≤ cache.numObject slab := counted.used_le
  have refcount := (counted.give bit).refcount_toNat
  rw [given]
  obtain ⟨ownPut, sizePut, now⟩ := put_perm middle (slab.give object)
  rw [own] at ownPut
  rw [size] at sizePut
  have retains : Retains cache (middle.put (slab.give object)) := .of_perm ownPut sizePut perm now rfl rfl
  refine ⟨⟨?_, ?_, ?_, ?_, ?_⟩, retains, fun other => ?_⟩
  · exact sizePut ▸ wellformed.positive
  · rw [retains.bufferSize, sizePut]
    exact (sound.replace (counted.give bit) rfl rfl).perm now.symm
  · intro other there
    unfold Mcache.put at there
    split at there
    · rename_i zero
      rcases mem_append.mp there with before | new
      · exact empties other before
      · obtain rfl := mem_singleton.mp new
        rw [← refcount, zero]
        rfl
    · exact empties other there
  · intro other there
    unfold Mcache.numObject
    rw [sizePut]
    unfold Mcache.put at there
    split at there
    · exact partials other there
    · rename_i nonzero
      rcases mem_append.mp there with before | new
      · exact partials other before
      · obtain rfl := mem_singleton.mp new
        have some : (slab.give object).used ≠ 0 := by
          rw [← refcount]
          exact fun zero => nonzero (BitVec.eq_of_toNat_eq zero)
        change 0 < (slab.give object).used ∧ (slab.give object).used < cache.numObject slab
        omega
  · intro other there
    unfold Mcache.numObject
    rw [sizePut]
    unfold Mcache.put at there
    split at there <;> exact fulls other there
  · rw [live_of_perm now, live_of_perm perm, sizePut, live_give wellformed.positive, ← at_]
    constructor
    · rintro (⟨here, differs⟩ | ⟨slab, there, lives⟩)
      · exact ⟨.inl here, differs⟩
      · exact ⟨.inr ⟨slab, there, lives⟩, fun same => elsewhere slab there (same ▸ lives)⟩
    · rintro ⟨here | there, differs⟩
      · exact .inl ⟨here, differs⟩
      · exact .inr there

theorem mcacheFree_frees (wellformed : cache.Wellformed) (live : cache.Live ptr) :
    Frees cache (mcacheFree cache ptr) ptr := by
  obtain ⟨slab, there, here⟩ := live
  have counted := (wellformed.sound.counted slab there).1
  have held := here.holds wellformed.positive counted
  have nonzero : ptr ≠ 0 := by
    obtain ⟨object, -, rfl⟩ := here
    have positive := counted.nonzero
    unfold McacheSlab.address
    omega
  unfold mcacheFree
  rw [if_neg nonzero]
  split
  · rename_i found hit
    have holds := List.find?_some hit
    refine put_frees wellformed ?_ rfl rfl wellformed.empties (fun other there => ?_) wellformed.fulls
      holds ⟨slab, there, here⟩
    · unfold Mcache.slabs
      refine (((perm_of_find hit).append_left _).append_right _).trans ?_
      rw [append_assoc, append_assoc]
      exact perm_middle
    · exact wellformed.partials other (mem_of_mem_eraseP there)
  · rename_i missing
    split
    · rename_i found hit
      have holds := List.find?_some hit
      refine put_frees wellformed ?_ rfl rfl wellformed.empties wellformed.partials (fun other there => ?_)
        holds ⟨slab, there, here⟩
      · unfold Mcache.slabs
        exact ((perm_of_find hit).append_left _).trans perm_middle
      · exact wellformed.fulls other (mem_of_mem_eraseP there)
    · rename_i absent
      exfalso
      unfold Mcache.slabs at there
      rcases mem_append.mp there with early | full
      · rcases mem_append.mp early with empty | partly
        · obtain ⟨object, bit, -⟩ := here
          have set : true ∈ slab.bitmap := mem_of_getElem? bit
          exact absurd set (count_eq_zero.mp (wellformed.empties slab empty))
        · exact absurd held (List.find?_eq_none.mp missing slab partly)
      · exact absurd held (List.find?_eq_none.mp absent slab full)

theorem mcacheFree_outside (outside : ∀ slab ∈ cache.slabs, slab.holds ptr = false) :
    mcacheFree cache ptr = cache := by
  unfold mcacheFree
  have partials : cache.partialSlabs.find? (·.holds ptr) = none := by
    refine List.find?_eq_none.mpr fun slab there => ?_
    rw [outside slab (mem_append_left _ (mem_append_right _ there))]
    decide
  have fulls : cache.fullSlabs.find? (·.holds ptr) = none := by
    refine List.find?_eq_none.mpr fun slab there => ?_
    rw [outside slab (mem_append_right _ there)]
    decide
  rw [partials, fulls]
  exact ite_self _

end Cache

end Phabos.Slab
