import Phabos.Proof.Mm.ClientInvariant

namespace Phabos.Mm
open Library
variable {regions : List MmRegion}

/-- A block is free and listed, held by a client, or has its pages. -/
def Clients.Block (s : Clients) (block order : Nat) : Prop :=
  block ∈ s.heap.mmBucket order ∨ (block + bufferSize ∈ s.held ∧ (s.heap.buffer block).bucket = order) ∨
    ∃ page ∈ s.pages, page.1 = block ∧ page.2 + PAGE_ORDER = order

/-- A result of `kmalloc` is the null pointer, or its block has room for the size after its header and meets
no other block. -/
def Clients.Roomy (s : Clients) (size : BitVec 32) (result : Nat × Heap) : Prop :=
  result.1 = 0 ∨ ∃ block order, result.1 = block + bufferSize ∧ (s.afterKmalloc result).Block block order ∧
    result.1 + size.toNat ≤ block + 2 ^ order ∧
    ∀ other size, (s.afterKmalloc result).Block other size → other ≠ block →
      ∀ x ∈ extent block order, x ∉ extent other size

/-- A free block of the order or a larger one lies in a region with the wanted flags. -/
def FreeIn (regions : List MmRegion) (s : Heap) (order : Nat) (flags : BitVec 32) : Prop :=
  ∃ bucket ≤ maxAddressableMemOrder, order ≤ bucket ∧ ∃ block ∈ s.mmBucket bucket, ∃ region ∈ regions,
    region.start ≤ block ∧ block + 2 ^ bucket ≤ region.start + region.size ∧ region.flags &&& flags = flags

section Sound
variable {s : Clients} {intact : Heap} {block order : Nat} {flags : BitVec 32}

section
variable (sound : s.Sound regions intact) (known : s.Block block order)
include sound known

theorem Clients.Sound.tile : ∃ tile, System.layout ⟨intact, s.pointers⟩ block = some tile ∧ tile.order = order := by
  have consistent := sound.invariant.consistent
  rcases known with listed | ⟨inside, rfl⟩ | ⟨page, there, rfl, rfl⟩
  · rw [sound.agree.buckets] at listed
    exact ⟨_, consistent.layout_free listed, rfl⟩
  · rw [sound.agree.header block inside]
    exact ⟨_, consistent.layout_held (Clients.mem_pointers.mpr (.inl inside)), rfl⟩
  · exact ⟨_, consistent.layout_held (Clients.mem_pointers.mpr (.inr ⟨page, there, rfl⟩)), sound.pages page there⟩

/-- Two blocks of the clients have no byte in common. -/
theorem Clients.Sound.blocks_apart {other size : Nat} (also : s.Block other size) (different : other ≠ block) {x : Nat}
    (inside : x ∈ extent block order) : x ∉ extent other size := by
  obtain ⟨one, foundOne, rfl⟩ := sound.tile known
  obtain ⟨two, foundTwo, rfl⟩ := sound.tile also
  exact fun alsoInside =>
    different (sound.invariant.consistent.tiling.apart _ _ _ _ x foundTwo foundOne alsoInside inside)

theorem Clients.Sound.block_order {other : Nat} (also : s.Block block other) : order = other := by
  obtain ⟨one, foundOne, rfl⟩ := sound.tile known
  obtain ⟨two, foundTwo, rfl⟩ := sound.tile also
  obtain rfl : one = two := Option.some.inj (foundOne.symm.trans foundTwo)
  rfl

end

theorem Heap.Agree.canSupply {kept : Set Nat} {heap : Heap} (agree : heap.Agree kept intact) :
    heap.CanSupply order flags ↔ intact.CanSupply order flags := by
  unfold Heap.CanSupply
  rw [agree.buckets]
  refine exists_congr fun bucket => and_congr_right fun _ => and_congr_right fun _ => exists_congr fun block =>
    and_congr_right fun listed => ?_
  unfold Heap.suits Heap.flagsOf
  rw [agree.listed bucket block (agree.buckets ▸ listed), agree.regions]

theorem Heap.Agree.meets {kept : Set Nat} {heap : Heap} (agree : heap.Agree kept intact) :
    heap.Meets order flags ↔ intact.Meets order flags := by
  unfold Heap.Meets
  rw [agree.canSupply, agree.canSupply]

/-- A request is served exactly when some free block meets it. -/
theorem Clients.Sound.served (sound : s.Sound regions intact) {size : BitVec 32} (some : size ≠ 0) (flags : BitVec 32) :
    if requestOrder size ≤ maxAddressableMemOrder ∧ s.heap.Meets (requestOrder size) flags then
      ∃ block, (Mm.kmalloc s.heap size flags).1 = block + bufferSize ∧
        (s.afterKmalloc (Mm.kmalloc s.heap size flags)).Block block (requestOrder size) ∧
        (Mm.kmalloc intact size flags).2.suits
          (if s.heap.CanSupply (requestOrder size) flags then flags else MM_DMA) block = true
    else (Mm.kmalloc s.heap size flags).1 = 0 := by
  obtain ⟨same, -⟩ := sound.agree.kmalloc sound.invariant size flags
  have after := sound.kmalloc size flags
  have outcome := kmalloc_outcome sound.invariant size flags
  rw [if_neg some] at outcome
  simp only [sound.agree.meets, sound.agree.canSupply]
  split at outcome
  · rename_i meets
    obtain ⟨block, later, returned, allocated⟩ := outcome
    rw [if_pos meets]
    rw [returned] at same after ⊢
    have nonNull : (Mm.kmalloc s.heap size flags).1 ≠ 0 := by
      rw [same]
      unfold bufferSize
      omega
    have holds : block + bufferSize ∈ (s.afterKmalloc (Mm.kmalloc s.heap size flags)).held := by
      unfold Clients.afterKmalloc
      rw [if_neg nonNull, same]
      exact Finset.mem_insert_self _ _
    refine ⟨block, same, .inr (.inl ⟨holds, ?_⟩), allocated.suits⟩
    rw [after.agree.header block holds]
    exact allocated.bucket
  · rename_i fails
    rw [if_neg fails, same, outcome]

theorem Clients.Sound.freeIn (sound : s.Sound regions intact) :
    FreeIn regions s.heap order flags ↔ s.heap.CanSupply order flags := by
  have consistent := sound.invariant.consistent
  refine exists_congr fun bucket => and_congr_right fun _ => and_congr_right fun _ => exists_congr fun block =>
    and_congr_right fun listed => ?_
  have tile := consistent.layout_free (sound.agree.buckets ▸ listed)
  obtain ⟨region, placed, low, high⟩ := consistent.tile_region tile
  have positive := Nat.two_pow_pos bucket
  dsimp only at placed high
  have flagsOf : s.heap.flagsOf block = region.flags := by
    unfold Heap.flagsOf
    rw [sound.agree.listed bucket block listed, sound.agree.regions, consistent.added, placed]
  unfold Heap.suits
  rw [flagsOf, beq_iff_eq]
  constructor
  · rintro ⟨other, there, lowOther, highOther, wanted⟩
    obtain ⟨position, bound, rfl⟩ := List.mem_iff_getElem.mp there
    have placedOther := List.getElem?_eq_getElem bound
    have same := consistent.valid.position_unique placed placedOther (x := block) ⟨low, by omega⟩ ⟨lowOther, by omega⟩
    rw [same] at placed
    rw [Option.some.inj (placed.symm.trans placedOther)]
    exact wanted
  · exact fun wanted => ⟨region, List.mem_of_getElem? placed, low, high, wanted⟩

theorem Clients.Sound.served_region (sound : s.Sound regions intact) {size : BitVec 32} {wanted : BitVec 32}
    (known : (s.afterKmalloc (Mm.kmalloc s.heap size flags)).Block block order)
    (suits : (Mm.kmalloc intact size flags).2.suits wanted block = true)
    (holds : block + bufferSize ∈ (s.afterKmalloc (Mm.kmalloc s.heap size flags)).held) :
    ∃ region ∈ regions, region.start ≤ block ∧ block + 2 ^ order ≤ region.start + region.size ∧
      region.flags &&& wanted = wanted := by
  have after := sound.kmalloc size flags
  have consistent := after.invariant.consistent
  have tile := consistent.layout_held (Clients.mem_pointers.mpr (.inl holds))
  obtain ⟨one, found, rfl⟩ := after.tile known
  obtain rfl := Option.some.inj (found.symm.trans tile)
  obtain ⟨region, placed, low, high⟩ := consistent.tile_region tile
  dsimp only at placed high
  refine ⟨region, List.mem_of_getElem? placed, low, high, ?_⟩
  unfold Heap.suits Heap.flagsOf at suits
  rw [consistent.added, placed] at suits
  exact beq_iff_eq.mp suits

end Sound

/-- In every heap that requests without wrapping reach, `kmalloc` returns the null pointer or a block that has
room for the size and meets no other, exactly when the size and the header do not wrap or no free block can
meet the request that they wrap to. -/
theorem kmalloc_never_short (regions : List MmRegion) (valid : ValidRegions regions)
    (nonNull : ∀ region ∈ regions, region.start ≠ 0) (requests : List Request)
    (short : ∀ request ∈ requests, request.Short) (s : Clients)
    (ran : run Clients.step (.boot regions) requests = some s) (size flags : BitVec 32) :
    s.Roomy size (kmalloc s.heap size flags) ↔
      size.toNat + bufferSize < 2 ^ 32 ∨ ¬s.heap.Meets (requestOrder size) flags := by
  obtain ⟨intact, sound⟩ := sound_of_run valid nonNull ran short
  by_cases empty : size = 0
  · refine iff_of_true (.inl (congrArg Prod.fst (if_pos empty))) (.inl ?_)
    rw [empty]
    decide
  have served := sound.served empty flags
  have after := sound.kmalloc size flags
  constructor
  · intro roomy
    by_contra both
    obtain ⟨wraps, meets⟩ : 2 ^ 32 ≤ size.toNat + bufferSize ∧ s.heap.Meets (requestOrder size) flags := by
      rwa [not_or, Nat.not_lt, not_not] at both
    have small := requestOrder_of_wrap wraps
    rw [if_pos ⟨Nat.le_trans small (by decide), meets⟩] at served
    obtain ⟨block, returned, known, -⟩ := served
    rcases roomy with null | ⟨other, order, same, also, room, -⟩
    · rw [returned] at null
      unfold bufferSize at null
      omega
    · obtain rfl : block = other := Nat.add_right_cancel (returned.symm.trans same)
      obtain rfl := after.block_order known also
      rw [returned] at room
      have bytes : 2 ^ requestOrder size ≤ 2 ^ 4 := Nat.pow_le_pow_right (by decide) small
      unfold bufferSize at wraps room
      omega
  · intro condition
    split at served
    · rename_i meets
      obtain ⟨block, returned, known, -⟩ := served
      have fits := condition.resolve_right (not_not.mpr meets.2)
      refine .inr ⟨block, _, returned, known, ?_, fun other size also different x inside =>
        after.blocks_apart known also different inside⟩
      have room := Nat.le_pow_clog (by decide : 1 < 2) (size.toNat + bufferSize)
      rw [returned, requestOrder_eq_clog fits]
      omega
    · exact .inl served

/-- A request of 100 bytes after one of 16 bytes has room. -/
theorem kmalloc_never_short_twins :
    ∃ s, run Clients.step (.boot twins) [.kmalloc 16 MM_KERNEL] = some s ∧
      (s.Roomy 100 (kmalloc s.heap 100 0) ↔
        (100#32).toNat + bufferSize < 2 ^ 32 ∨ ¬s.heap.Meets (requestOrder 100) 0) :=
  ⟨_, rfl, kmalloc_never_short twins twins_valid (by decide) [.kmalloc 16 MM_KERNEL] (by decide) _ rfl 100 0⟩

/-- A request of 4294967289 bytes gets a block of 16 bytes, which its header fills. -/
theorem kmalloc_returns_short_block :
    (kmalloc (Clients.boot twins).heap 4294967289 0).1 = 528 ∧
      ¬(Clients.boot twins).Roomy 4294967289 (kmalloc (Clients.boot twins).heap 4294967289 0) := by
  have returned : (kmalloc (Clients.boot twins).heap 4294967289 0).1 = 528 := by decide +kernel
  have bucket : ((kmalloc (Clients.boot twins).heap 4294967289 0).2.buffer 512).bucket = 4 := by decide +kernel
  have sound := (sound_boot twins_valid (by decide)).kmalloc 4294967289 0
  have holds : (528 : Nat) ∈
      ((Clients.boot twins).afterKmalloc (kmalloc (Clients.boot twins).heap 4294967289 0)).held := by
    decide +kernel
  refine ⟨returned, ?_⟩
  rintro (null | ⟨block, order, same, known, room, -⟩)
  · rw [returned] at null
    cases null
  · obtain rfl : 512 = block := Nat.add_right_cancel (m := bufferSize) (returned.symm.trans same)
    have four := sound.block_order known (.inr (.inl ⟨holds, bucket⟩))
    rw [returned, four] at room
    revert room
    decide +kernel

/-- In every heap that requests without wrapping reach, a request of some bytes is met exactly when a free block
that is large enough lies in a region with the wanted flags, or without `MM_DMA` in a region for DMA. Its block
lies in such a region, with the wanted flags if there is one, and a request that fails changes no bucket. -/
theorem kmalloc_complete (regions : List MmRegion) (valid : ValidRegions regions)
    (nonNull : ∀ region ∈ regions, region.start ≠ 0) (requests : List Request)
    (short : ∀ request ∈ requests, request.Short) (s : Clients)
    (ran : run Clients.step (.boot regions) requests = some s) (size flags : BitVec 32) (some : size ≠ 0)
    (fits : Nat.clog 2 (size.toNat + bufferSize) ≤ maxAddressableMemOrder) :
    ((kmalloc s.heap size flags).1 ≠ 0 ↔
        FreeIn regions s.heap (Nat.clog 2 (size.toNat + bufferSize)) flags ∨
          flags &&& MM_DMA = 0 ∧ FreeIn regions s.heap (Nat.clog 2 (size.toNat + bufferSize)) MM_DMA) ∧
      (∀ block, (kmalloc s.heap size flags).1 = block + bufferSize →
        ∃ region ∈ regions, region.start ≤ block ∧
          block + 2 ^ Nat.clog 2 (size.toNat + bufferSize) ≤ region.start + region.size ∧
          (FreeIn regions s.heap (Nat.clog 2 (size.toNat + bufferSize)) flags → region.flags &&& flags = flags) ∧
          (¬FreeIn regions s.heap (Nat.clog 2 (size.toNat + bufferSize)) flags →
            region.flags &&& MM_DMA = MM_DMA)) ∧
      ((kmalloc s.heap size flags).1 = 0 → (kmalloc s.heap size flags).2.mmBucket = s.heap.mmBucket) := by
  obtain ⟨intact, sound⟩ := sound_of_run valid nonNull ran short
  have bound : size.toNat + bufferSize ≤ 2 ^ maxAddressableMemOrder := (Nat.clog_le_iff_le_pow (by decide)).mp fits
  have noWrap : size.toNat + bufferSize < 2 ^ 32 := Nat.lt_of_le_of_lt bound (by decide)
  have order := requestOrder_eq_clog noWrap
  have served := sound.served some flags
  rw [order] at served
  rw [sound.freeIn, sound.freeIn]
  by_cases meets : s.heap.Meets (Nat.clog 2 (size.toNat + bufferSize)) flags
  · rw [if_pos ⟨fits, meets⟩] at served
    obtain ⟨block, returned, known, suits⟩ := served
    have nonNull : (kmalloc s.heap size flags).1 ≠ 0 := by
      rw [returned]
      unfold bufferSize
      omega
    refine ⟨iff_of_true nonNull meets, fun other same => ?_, fun null => absurd null nonNull⟩
    obtain rfl : block = other := Nat.add_right_cancel (returned.symm.trans same)
    have holds : block + bufferSize ∈ (s.afterKmalloc (kmalloc s.heap size flags)).held := by
      unfold Clients.afterKmalloc
      rw [if_neg nonNull, returned]
      exact Finset.mem_insert_self _ _
    obtain ⟨region, there, low, high, wanted⟩ := sound.served_region known suits holds
    refine ⟨region, there, low, high, fun supply => ?_, fun none => ?_⟩
    · rwa [if_pos supply] at wanted
    · rwa [if_neg none] at wanted
  · rw [if_neg fun both => meets both.2] at served
    refine ⟨iff_of_false (not_not.mpr served) meets, fun block same => ?_, fun _ => ?_⟩
    · rw [served] at same
      unfold bufferSize at same
      omega
    · have outcome := kmalloc_outcome sound.invariant size flags
      rw [if_neg some, order, if_neg fun both => meets (sound.agree.meets.mpr both.2)] at outcome
      rw [(sound.agree.kmalloc sound.invariant size flags).2.buckets, outcome, sound.agree.buckets]
      rfl

/-- A request of 100 bytes without flags is met after one of 16 bytes. -/
theorem kmalloc_complete_twins :
    ∃ s, run Clients.step (.boot twins) [.kmalloc 16 MM_KERNEL] = some s ∧
      ((kmalloc s.heap 100 0).1 ≠ 0 ↔
        FreeIn twins s.heap (Nat.clog 2 116) 0 ∨ 0#32 &&& MM_DMA = 0 ∧ FreeIn twins s.heap (Nat.clog 2 116) MM_DMA) :=
  ⟨_, rfl, (kmalloc_complete twins twins_valid (by decide) [.kmalloc 16 MM_KERNEL] (by decide) _ rfl 100 0
    (by decide) (by decide)).1⟩

/-- A request of no bytes fails although a free block is large enough for its header, and so does one whose
free block starts at address 0. -/
theorem kmalloc_of_nothing_fails :
    ((kmalloc (Clients.boot twins).heap 0 0).1 = 0 ∧
        FreeIn twins (Clients.boot twins).heap (Nat.clog 2 ((0#32).toNat + bufferSize)) 0) ∧
      (kmalloc (Clients.boot [⟨0, 256, MM_KERNEL⟩]).heap 100 0).1 = 0 ∧
        FreeIn [⟨0, 256, MM_KERNEL⟩] (Clients.boot [⟨0, 256, MM_KERNEL⟩]).heap
          (Nat.clog 2 ((100#32).toNat + bufferSize)) 0 := by
  refine ⟨⟨by decide +kernel, 8, by decide, by decide, 512, by decide +kernel, ⟨512, 256, MM_KERNEL⟩, by simp [twins],
    by decide, by decide, by decide⟩, by decide +kernel, 8, by decide, by decide, 0, by decide +kernel,
    ⟨0, 256, MM_KERNEL⟩, by simp, by decide, by decide, by decide⟩

end Phabos.Mm
