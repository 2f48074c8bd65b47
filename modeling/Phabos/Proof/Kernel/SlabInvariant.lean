import Phabos.Library.Run
import Phabos.Proof.Kernel.SlabCache

namespace Phabos.Slab
open Library List

/-- The number of live objects of a slab. -/
def Client.liveIn (s : Client) (slab : McacheSlab) : Nat := s.live.countP slab.holds

/-- Each slab is on one list, and on the one that says how many of its objects are live. Live objects lie
in their slabs and do not overlap. No allocation fails but for want of a new slab. -/
structure Client.Consistent (s : Client) : Prop where
  once : (s.cache.ptr :: s.cache.slabs.map McacheSlab.ptr).Perm (heapAcquired s.effects) ∧
    (heapAcquired s.effects).Nodup
  empties : ∀ slab ∈ s.cache.slabs, slab ∈ s.cache.emptySlabs ↔ s.liveIn slab = 0
  partials : ∀ slab ∈ s.cache.slabs,
    slab ∈ s.cache.partialSlabs ↔ 0 < s.liveIn slab ∧ s.liveIn slab < s.cache.numObject slab
  fulls : ∀ slab ∈ s.cache.slabs, slab ∈ s.cache.fullSlabs ↔ s.liveIn slab = s.cache.numObject slab
  refcount : ∀ slab ∈ s.cache.slabs,
    slab.refcount.toNat = slab.bitmap.count true ∧ slab.refcount.toNat = s.liveIn slab
  disjoint : s.live.Pairwise (Apart s.cache.size)
  inside : ∀ ptr ∈ s.live, ∃ slab ∈ s.cache.slabs, ∃ object,
    ptr = slab.buffer + object * s.cache.size ∧ ptr + s.cache.size ≤ slab.buffer + slab.size
  exhausted : ∀ page ptr, s.Fresh page ptr → (mcacheAlloc s.cache page ptr).1 = none →
    s.cache.needsSlab ∧ (page = none ∨ ptr = none)

/-- The callers know the live objects, and the log knows the slabs. -/
structure Client.Accounted (s : Client) : Prop where
  wellformed : s.cache.Wellformed
  nodup : s.live.Nodup
  live : ∀ ptr, ptr ∈ s.live ↔ s.cache.Live ptr
  pages : ∀ slab ∈ s.cache.slabs, ∃ order, (slab.buffer, order) ∈ pagesAcquired s.effects
  names : (s.cache.ptr :: s.cache.slabs.map McacheSlab.ptr).Perm (heapAcquired s.effects)
  named : (heapAcquired s.effects).Nodup

section Client
variable {s : Client} {slab other : McacheSlab}

theorem count_eq_countP_range (bits : List Bool) :
    bits.count true = (range bits.length).countP (fun index => bits[index]? = some true) := by
  have whole : (range bits.length).map (fun index => bits[index]?) = bits.map some := by
    apply ext_getElem
    · simp
    · intro index one two
      simp at one
      simp [one]
  have counted := congrArg (count (some true)) whole
  rw [count_map_of_injective _ _ (Option.some_injective _)] at counted
  rw [← counted, count, countP_map]
  apply countP_congr
  intro index _
  simp

theorem Client.Accounted.liveIn (accounted : s.Accounted) (there : slab ∈ s.cache.slabs) :
    s.liveIn slab = slab.used := by
  have positive := accounted.wellformed.positive
  have perm : (s.live.filter slab.holds).Perm
      (((range slab.bitmap.length).filter fun index => slab.bitmap[index]? = some true).map
        (slab.address s.cache.size)) := by
    apply (perm_ext_iff_of_nodup (accounted.nodup.filter _) ?_).mpr
    · intro ptr
      rw [mem_filter, accounted.live, mem_map]
      constructor
      · rintro ⟨⟨owner, owned, live⟩, held⟩
        obtain ⟨others, perm⟩ : ∃ others, s.cache.slabs.Perm (slab :: others) := ⟨_, perm_cons_erase there⟩
        have sound := accounted.wellformed.sound.perm perm
        rcases mem_cons.mp (perm.mem_iff.mp owned) with rfl | later
        · obtain ⟨object, bit, rfl⟩ := live
          refine ⟨object, mem_filter.mpr ⟨?_, by simpa using bit⟩, rfl⟩
          exact mem_range.mpr (List.getElem?_eq_some_iff.mp bit).1
        · have also := live.holds positive (sound.counted owner (mem_cons_of_mem _ later)).1
          rw [sound.holds_unique held owner later] at also
          cases also
      · rintro ⟨object, chosen, rfl⟩
        have bit := (mem_filter.mp chosen).2
        have live : slab.Live s.cache.size (slab.address s.cache.size object) :=
          ⟨object, by simpa using bit, rfl⟩
        exact ⟨⟨slab, there, live⟩, live.holds positive (accounted.wellformed.sound.counted slab there).1⟩
    · refine (nodup_range.filter _).map_on fun one _ two _ same => ?_
      exact address_inj positive same
  have length := perm.length_eq
  rw [length_map, ← countP_eq_length_filter, ← countP_eq_length_filter] at length
  rw [Client.liveIn, length, McacheSlab.used, count_eq_countP_range]

theorem Client.Accounted.disjoint (accounted : s.Accounted) : s.live.Pairwise (Apart s.cache.size) := by
  have positive := accounted.wellformed.positive
  apply accounted.nodup.pairwise_of_forall_ne
  intro one oneLive two twoLive differ
  obtain ⟨slab, there, object, bit, rfl⟩ := (accounted.live one).mp oneLive
  obtain ⟨other, also, second, set, rfl⟩ := (accounted.live two).mp twoLive
  by_cases same : slab = other
  · subst same
    have order : object ≠ second := by
      rintro rfl
      exact differ rfl
    unfold Apart McacheSlab.address
    rcases Nat.lt_or_gt_of_ne order with less | more
    · have step := Nat.mul_le_mul_left s.cache.size (show object + 1 ≤ second by omega)
      rw [Nat.mul_add] at step
      omega
    · have step := Nat.mul_le_mul_left s.cache.size (show second + 1 ≤ object by omega)
      rw [Nat.mul_add] at step
      omega
  · have symmetric : Std.Symm fun one other : McacheSlab =>
        Apart s.cache.bufferSize one.buffer other.buffer := ⟨fun _ _ => Apart.symm⟩
    have apart := accounted.wellformed.sound.apart.forall there also same
    obtain ⟨counted, bytes⟩ := accounted.wellformed.sound.counted slab there
    obtain ⟨countedOther, bytesOther⟩ := accounted.wellformed.sound.counted other also
    have inside := address_inside (counted.inside object bit)
    have insideOther := address_inside (countedOther.inside second set)
    unfold Apart McacheSlab.address at *
    omega

theorem Client.Accounted.outcome (accounted : s.Accounted) (room : s.cache.size ≤ s.cache.bufferSize)
    {page ptr : Option Nat} (fresh : s.Fresh page ptr) :
    AllocOutcome s.cache page ptr (mcacheAlloc s.cache page ptr) := by
  apply mcacheAlloc_outcome accounted.wellformed room
  intro address there
  obtain ⟨nonzero, -, apart⟩ := fresh.1 address there
  refine ⟨nonzero, fun slab known => ?_⟩
  obtain ⟨order, acquired⟩ := accounted.pages slab known
  exact apart _ acquired

/-- A cache whose slabs are accounted for is consistent. -/
theorem Client.Accounted.consistent (accounted : s.Accounted) (room : s.cache.size ≤ s.cache.bufferSize) :
    s.Consistent := by
  have wellformed := accounted.wellformed
  have some (slab) (there : slab ∈ s.cache.slabs) : 0 < s.cache.numObject slab :=
    (wellformed.sound.counted slab there).1.room
  have placed (slab) (there : slab ∈ s.cache.slabs) :
      slab ∈ s.cache.emptySlabs ∨ slab ∈ s.cache.partialSlabs ∨ slab ∈ s.cache.fullSlabs := by
    unfold Mcache.slabs at there
    simp only [mem_append, or_assoc] at there
    exact there
  refine ⟨⟨accounted.names, accounted.named⟩, ?_, ?_, ?_, ?_, accounted.disjoint, ?_, ?_⟩
  · intro slab there
    rw [accounted.liveIn there]
    refine ⟨wellformed.empties slab, fun zero => ?_⟩
    rcases placed slab there with empty | partly | full
    · exact empty
    · have := (wellformed.partials slab partly).1
      omega
    · have := wellformed.fulls slab full
      have := some slab there
      omega
  · intro slab there
    rw [accounted.liveIn there]
    refine ⟨wellformed.partials slab, fun between => ?_⟩
    rcases placed slab there with empty | partly | full
    · have := wellformed.empties slab empty
      omega
    · exact partly
    · have := wellformed.fulls slab full
      omega
  · intro slab there
    rw [accounted.liveIn there]
    refine ⟨wellformed.fulls slab, fun all => ?_⟩
    rcases placed slab there with empty | partly | full
    · have := wellformed.empties slab empty
      have := some slab there
      omega
    · have := (wellformed.partials slab partly).2
      omega
    · exact full
  · intro slab there
    rw [accounted.liveIn there]
    have refcount := (wellformed.sound.counted slab there).1.refcount_toNat
    exact ⟨refcount, refcount⟩
  · intro ptr live
    obtain ⟨slab, there, object, bit, rfl⟩ := (accounted.live ptr).mp live
    refine ⟨slab, there, object, ?_, ?_⟩
    · rw [McacheSlab.address, Nat.mul_comm]
    · exact address_inside ((wellformed.sound.counted slab there).1.inside object bit)
  · intro page ptr fresh none
    have outcome := accounted.outcome room fresh
    generalize mcacheAlloc s.cache page ptr = result at outcome none
    cases outcome with
    | reused allocates => cases none
    | added needs there named gives zero allocates => cases none
    | failed needs missing => exact ⟨needs, missing⟩

theorem heapAcquired_append (early late : List Effect) :
    heapAcquired (early ++ late) = heapAcquired early ++ heapAcquired late := filterMap_append ..

theorem pagesAcquired_append (early late : List Effect) :
    pagesAcquired (early ++ late) = pagesAcquired early ++ pagesAcquired late := filterMap_append ..

theorem acquired_ctors (ctor : Bool) (object : Nat → Nat) :
    heapAcquired (if ctor then (range numObjects).map fun i => .ctor (object i) else []) = [] ∧
      pagesAcquired (if ctor then (range numObjects).map fun i => .ctor (object i) else []) = [] := by
  cases ctor <;> exact ⟨rfl, rfl⟩

theorem acquired_new {cache : Mcache} {page node : Option Nat} {buffer ptr : Nat} {effects : List Effect}
    (there : page = some buffer) (named : node = some ptr)
    (gives : mcacheAllocateNewSlab cache page node = (some slab, effects)) :
    slab.ptr = ptr ∧ slab.buffer = buffer ∧ heapAcquired effects = [ptr] ∧
      pagesAcquired effects = [(buffer, Mm.sizeToOrder cache.pages)] := by
  subst there named
  obtain ⟨new, rfl⟩ := Prod.mk.inj gives
  obtain rfl := Option.some.inj new
  obtain ⟨heap, pages⟩ := acquired_ctors cache.ctor (cache.object buffer)
  refine ⟨rfl, rfl, ?_, ?_⟩
  · rw [heapAcquired_append, heap]
    rfl
  · rw [pagesAcquired_append, pages]
    rfl

theorem acquired_failed (cache : Mcache) {page node : Option Nat} (missing : page = none ∨ node = none) :
    heapAcquired (mcacheAllocateNewSlab cache page node).2 = [] := by
  cases page with
  | none => rfl
  | some buffer =>
    rcases missing with absent | rfl
    · cases absent
    · rfl

theorem Retains.fields {before after : Mcache} (retains : Retains before after) :
    (after.slabs.map McacheSlab.ptr).Perm (before.slabs.map McacheSlab.ptr) ∧
      ∀ slab ∈ after.slabs, ∃ other ∈ before.slabs, slab.buffer = other.buffer := by
  constructor
  · have names := retains.slabs.map Prod.fst
    rw [map_map, map_map] at names
    exact names
  · intro slab there
    have member := retains.slabs.mem_iff.mp (mem_map_of_mem there)
    obtain ⟨other, known, same⟩ := mem_map.mp member
    exact ⟨other, known, (congrArg Prod.snd same).symm⟩

theorem Client.Accounted.join {before after : Mcache} {ptr : Nat} (accounted : s.Accounted)
    (same : ∀ other, before.Live other ↔ s.cache.Live other) (allocates : Allocates before after ptr) :
    (s.live ++ [ptr]).Nodup ∧ ∀ other, other ∈ s.live ++ [ptr] ↔ after.Live other := by
  constructor
  · refine nodup_append.mpr ⟨accounted.nodup, nodup_singleton _, ?_⟩
    intro other there one new same'
    rw [mem_singleton.mp new] at same'
    exact allocates.fresh ((same ptr).mpr ((accounted.live ptr).mp (same' ▸ there)))
  · intro other
    rw [mem_append, mem_singleton, allocates.live, same, accounted.live]

/-- A call keeps the account of the slabs and their objects. -/
theorem Client.Accounted.step {next : Client} {call : Call} (accounted : s.Accounted)
    (room : s.cache.size ≤ s.cache.bufferSize) (stepped : step s call = some next) :
    next.Accounted ∧ next.cache.size = s.cache.size := by
  cases call with
  | alloc page ptr =>
    simp only [Slab.step, Option.ite_none_right_eq_some] at stepped
    obtain ⟨fresh, same⟩ := stepped
    have outcome := accounted.outcome room fresh
    generalize mcacheAlloc s.cache page ptr = result at outcome same
    cases outcome with
    | @reused after object allocates =>
      obtain rfl := Option.some.inj same
      obtain ⟨nodup, live⟩ := accounted.join (fun _ => .rfl) allocates
      obtain ⟨names, buffers⟩ := allocates.retains.fields
      refine ⟨⟨allocates.wellformed, nodup, live, ?_, ?_, ?_⟩, allocates.retains.size⟩
      · intro slab there
        obtain ⟨other, known, equal⟩ := buffers slab there
        obtain ⟨order, acquired⟩ := accounted.pages other known
        rw [append_nil]
        exact ⟨order, equal ▸ acquired⟩
      · rw [append_nil, allocates.retains.ptr]
        exact (names.cons _).trans accounted.names
      · rw [append_nil]
        exact accounted.named
    | @added after object buffer node slab effects needs there named gives none allocates =>
      obtain rfl := Option.some.inj same
      obtain ⟨nodup, live⟩ := accounted.join (fun _ => live_add none) allocates
      obtain ⟨names, buffers⟩ := allocates.retains.fields
      obtain ⟨own, base, heap, pages⟩ := acquired_new there named gives
      refine ⟨⟨allocates.wellformed, nodup, live, ?_, ?_, ?_⟩, allocates.retains.size⟩
      · intro slab member
        obtain ⟨other, known, equal⟩ := buffers slab member
        rw [pagesAcquired_append, pages, equal]
        rcases mem_cons.mp (slabs_add.mem_iff.mp known) with rfl | before
        · exact ⟨_, mem_append_right _ (by rw [base]; exact mem_singleton_self _)⟩
        · obtain ⟨order, acquired⟩ := accounted.pages other before
          exact ⟨order, mem_append_left _ acquired⟩
      · have grown := names.trans (slabs_add.map McacheSlab.ptr)
        rw [heapAcquired_append, heap, allocates.retains.ptr]
        refine (grown.cons _).trans ?_
        rw [map_cons, own]
        refine (List.Perm.swap _ _ _).trans ?_
        refine .trans ?_ (perm_append_singleton _ _).symm
        exact accounted.names.cons _
      · rw [heapAcquired_append, heap]
        refine nodup_append.mpr ⟨accounted.named, nodup_singleton _, ?_⟩
        intro name known one new same
        rw [mem_singleton.mp new] at same
        exact (fresh.2 node named).2 (same ▸ known)
    | failed needs missing =>
      obtain rfl := Option.some.inj same
      have heap := acquired_failed s.cache missing
      refine ⟨⟨accounted.wellformed, ?_, ?_, ?_, ?_, ?_⟩, rfl⟩
      · rw [Option.toList_none, append_nil]
        exact accounted.nodup
      · rw [Option.toList_none, append_nil]
        exact accounted.live
      · intro slab there
        obtain ⟨order, acquired⟩ := accounted.pages slab there
        rw [pagesAcquired_append]
        exact ⟨order, mem_append_left _ acquired⟩
      · rw [heapAcquired_append, heap, append_nil]
        exact accounted.names
      · rw [heapAcquired_append, heap, append_nil]
        exact accounted.named
  | free ptr =>
    obtain ⟨allowed, rfl⟩ := Option.ite_some_none_eq_some.mp stepped
    by_cases live : ptr ∈ s.live
    · have frees := mcacheFree_frees accounted.wellformed ((accounted.live ptr).mp live)
      obtain ⟨names, buffers⟩ := frees.retains.fields
      refine ⟨⟨frees.wellformed, accounted.nodup.erase _, ?_, ?_, ?_, accounted.named⟩, frees.retains.size⟩
      · intro other
        rw [accounted.nodup.mem_erase_iff, frees.live, accounted.live, and_comm]
      · intro slab there
        obtain ⟨other, known, equal⟩ := buffers slab there
        rw [equal]
        exact accounted.pages other known
      · rw [frees.retains.ptr]
        exact (names.cons _).trans accounted.names
    · have outside := allowed.resolve_left live
      rw [mcacheFree_outside outside, erase_of_not_mem live]
      exact ⟨accounted, rfl⟩

/-- A new cache has no slab to account for. -/
theorem accounted_create {cache : Mcache} (positive : 0 < cache.size) (empties : cache.emptySlabs = [])
    (partials : cache.partialSlabs = []) (fulls : cache.fullSlabs = []) :
    (Client.create cache).Accounted := by
  have none : cache.slabs = [] := by
    unfold Mcache.slabs
    rw [empties, partials, fulls]
    rfl
  refine ⟨⟨positive, ⟨?_, ?_⟩, ?_, ?_, ?_⟩, nodup_nil, ?_, ?_, ?_, nodup_singleton _⟩
  · simp [Client.create, none]
  · simp [Client.create, none]
  · simp [Client.create, empties]
  · simp [Client.create, partials]
  · simp [Client.create, fulls]
  · simp [Client.create, Mcache.Live, none]
  · simp [Client.create, none]
  · simp only [Client.create, none]
    exact List.Perm.refl _

/-- An object that is larger than a slab is never given out. -/
theorem mcacheAlloc_without_room {cache : Mcache} {buffer ptr : Nat} (needs : cache.needsSlab)
    (small : cache.bufferSize < cache.size) : (mcacheAlloc cache (some buffer) (some ptr)).1 = none := by
  have few : cache.bufferSize / cache.size = 0 := Nat.div_eq_of_lt small
  unfold mcacheAlloc
  rw [if_pos needs.1, mcacheMove_of_needs needs]
  unfold mcacheAllocateNewSlab Mcache.add Mcache.allocPartial slabAllocObject Mcache.numObject
  simp [needs.1, few]

end Client

/-- Each slab cache keeps its slabs consistent in every run exactly when its new slabs have room for an
object, so that the size of five objects does not wrap below that of one. -/
theorem mcache_keeps_slabs_consistent (size align ptr : Nat) (ctor dtor : Bool) (cache : Mcache)
    (created : (mcacheCreate size align ctor dtor (some ptr)).1 = some cache) (positive : 0 < cache.size)
    (fits : cache.size < 2 ^ 32) :
    (∀ calls s, run step (.create cache) calls = some s → s.Consistent) ↔
      cache.size ≤ cache.bufferSize := by
  have shape : cache = ⟨ptr, max size align, ctor, dtor, [], [], []⟩ := (Option.some.inj created).symm
  have needs : cache.needsSlab := by
    rw [shape]
    exact ⟨rfl, rfl⟩
  constructor
  · intro consistent
    by_contra small
    have least : cache.bufferSize < cache.size := Nat.lt_of_not_le small
    have fresh : (Client.create cache).Fresh (some 1) (some (cache.ptr + 1)) := by
      refine ⟨fun address there => ?_, fun address there => ?_⟩
      · obtain rfl := Option.some.inj there
        refine ⟨Nat.one_pos, ?_, fun other none => absurd none (List.not_mem_nil)⟩
        change 1 + cache.bufferSize ≤ 2 ^ 32
        omega
      · obtain rfl := Option.some.inj there
        refine ⟨Nat.succ_pos _, fun known => ?_⟩
        exact absurd (List.mem_singleton.mp known) (Nat.succ_ne_self _)
    obtain ⟨-, missing⟩ := (consistent [] _ rfl).exhausted _ _ fresh (mcacheAlloc_without_room needs least)
    rcases missing with absent | absent <;> cases absent
  · intro room calls s ran
    have start : (Client.create cache).Accounted :=
      accounted_create positive needs.2 needs.1 (by rw [shape])
    obtain ⟨accounted, same⟩ := run_invariant (fun s => s.Accounted ∧ s.cache.size = cache.size) ⟨start, rfl⟩ ran
      @fun s _ _ kept stepped => by
        have enough : s.cache.size ≤ s.cache.bufferSize := by
          unfold Mcache.bufferSize
          rw [kept.2]
          exact room
        obtain ⟨accounted, size⟩ := kept.1.step enough stepped
        exact ⟨accounted, size.trans kept.2⟩
    apply accounted.consistent
    unfold Mcache.bufferSize
    rw [same]
    exact room

/-- A cache of objects of 32 bytes keeps its slabs consistent. -/
theorem mcache_keeps_slabs_consistent_small :
    (∀ calls s, run step (.create ⟨8, 32, true, true, [], [], []⟩) calls = some s → s.Consistent) ↔
      Mcache.size ⟨8, 32, true, true, [], [], []⟩ ≤ Mcache.bufferSize ⟨8, 32, true, true, [], [], []⟩ :=
  mcache_keeps_slabs_consistent 32 4 8 true true ⟨8, 32, true, true, [], [], []⟩ rfl (by decide) (by decide)

/-- Five objects of 858993460 bytes wrap to 4 bytes, so that an allocation fails although pages were given. -/
theorem mcache_alloc_wraps :
    ¬∀ calls s, run step (.create ⟨8, 858993460, false, false, [], [], []⟩) calls = some s →
      s.Consistent := by
  intro consistent
  have missing := ((consistent [] _ rfl).exhausted (some 256) (some 24) (by decide)
    (mcacheAlloc_without_room ⟨rfl, rfl⟩ (by decide))).2
  rcases missing with absent | absent <;> cases absent

end Phabos.Slab
