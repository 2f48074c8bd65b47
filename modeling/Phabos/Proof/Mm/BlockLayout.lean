import Phabos.Construction.Kernel.Mm
import Phabos.Library.Tiling

namespace Phabos.Mm
open Library Function List

/-- A region is a power of two of at least a page, aligned on its size. -/
structure MmRegion.WellFormed (region : MmRegion) : Prop where
  power : ∃ order, 8 ≤ order ∧ order ≤ maxAddressableMemOrder ∧ region.size = 2 ^ order
  aligned : region.size ∣ region.start
  bounded : region.start < 2 ^ 32

/-- Pairwise disjoint well-formed regions make a heap. -/
structure ValidRegions (regions : List MmRegion) : Prop where
  wellFormed : ∀ region ∈ regions, region.WellFormed
  disjoint : regions.Pairwise fun first second =>
    ∀ x, first.start ≤ x → x < first.start + first.size →
      second.start ≤ x → x < second.start + second.size → False

/-- These are the addresses of the region at a position of the list. -/
def space (regions : List MmRegion) (position : Nat) : Set Nat :=
  {x | ∃ region, regions[position]? = some region ∧ region.start ≤ x ∧ x < region.start + region.size}

/-- A block is free when the bucket of its header lists it, and in use when a caller holds it. -/
def System.layout (s : System) : Layout Nat := fun block =>
  let header := s.heap.buffer block
  if block ∈ s.heap.mmBucket header.bucket then some ⟨header.bucket, header.region, true⟩
  else if block + bufferSize ∈ s.held then some ⟨header.bucket, header.region, false⟩
  else none

/-- The blocks tile the regions, and each bucket lists its own free blocks once. -/
structure System.Consistent (regions : List MmRegion) (s : System) : Prop where
  added : s.heap.mmRegionList = regions
  valid : ValidRegions regions
  nonNull : ∀ region ∈ regions, region.start ≠ 0
  tiling : Tiling (space regions) s.layout
  recorded : ∀ bucket block, block ∈ s.heap.mmBucket bucket → (s.heap.buffer block).bucket = bucket
  once : ∀ bucket, (s.heap.mmBucket bucket).Nodup
  apart : ∀ bucket block, block ∈ s.heap.mmBucket bucket → block + bufferSize ∉ s.held
  pointers : ∀ ptr ∈ s.held, bufferSize ≤ ptr

section Lists
variable (s : Heap)

theorem mem_listAdd {bucket buffer k block : Nat} :
    block ∈ (s.listAdd bucket buffer).mmBucket k ↔
      block ∈ s.mmBucket k ∨ k = bucket ∧ block = buffer := by
  unfold Heap.listAdd
  by_cases same : k = bucket
  · subst k
    simp
  · simp [same]

theorem mem_listDel (once : ∀ bucket, (s.mmBucket bucket).Nodup) {buffer k block : Nat} :
    block ∈ (s.listDel buffer).mmBucket k ↔ block ∈ s.mmBucket k ∧ block ≠ buffer := by
  unfold Heap.listDel
  rw [(once k).mem_erase_iff, and_comm]

theorem nodup_listDel (once : ∀ bucket, (s.mmBucket bucket).Nodup) (buffer bucket : Nat) :
    ((s.listDel buffer).mmBucket bucket).Nodup := (once bucket).erase buffer

theorem nodup_listAdd (once : ∀ bucket, (s.mmBucket bucket).Nodup) {bucket buffer : Nat}
    (absent : buffer ∉ s.mmBucket bucket) (k : Nat) :
    ((s.listAdd bucket buffer).mmBucket k).Nodup := by
  unfold Heap.listAdd
  dsimp only
  by_cases same : k = bucket
  · subst k
    rw [update_self]
    exact (once _).append (nodup_singleton _) (by simpa using absent)
  · rw [update_of_ne same]
    exact once k

@[simp] theorem buffer_listAdd (bucket buffer : Nat) : (s.listAdd bucket buffer).buffer = s.buffer := rfl

@[simp] theorem buffer_listDel (buffer : Nat) : (s.listDel buffer).buffer = s.buffer := rfl

@[simp] theorem mmBucket_setBuffer (address : Nat) (buffer : MmBuffer) :
    (s.setBuffer address buffer).mmBucket = s.mmBucket := rfl

@[simp] theorem regions_listAdd (bucket buffer : Nat) :
    (s.listAdd bucket buffer).mmRegionList = s.mmRegionList := rfl

@[simp] theorem regions_listDel (buffer : Nat) :
    (s.listDel buffer).mmRegionList = s.mmRegionList := rfl

@[simp] theorem regions_setBuffer (address : Nat) (buffer : MmBuffer) :
    (s.setBuffer address buffer).mmRegionList = s.mmRegionList := rfl

theorem mmBucket_splitBuffer (order buffer1 k : Nat) :
    (s.splitBuffer order buffer1).mmBucket k =
      if k = order then (s.mmBucket k).erase buffer1 ++ [buffer1] ++ [buffer1 + 2 ^ order]
      else (s.mmBucket k).erase buffer1 := by
  unfold Heap.splitBuffer Heap.listAdd Heap.listDel Heap.setBuffer
  by_cases same : k = order
  · subst k
    simp
  · simp [same]

theorem buffer_splitBuffer (order buffer1 block : Nat) :
    (s.splitBuffer order buffer1).buffer block =
      if block = buffer1 ∨ block = buffer1 + 2 ^ order then ⟨order, (s.buffer buffer1).region⟩
      else s.buffer block := by
  unfold Heap.splitBuffer Heap.listAdd Heap.listDel Heap.setBuffer
  by_cases high : block = buffer1 + 2 ^ order
  · simp [high]
  · by_cases low : block = buffer1
    · simp [low]
    · simp [low, high]

theorem mmBucket_mergeBuffers (low high k : Nat) :
    (s.mergeBuffers low high).mmBucket k =
      if k = (s.buffer low).bucket + 1 then ((s.mmBucket k).erase low).erase high ++ [low]
      else ((s.mmBucket k).erase low).erase high := by
  unfold Heap.mergeBuffers Heap.listAdd Heap.listDel Heap.setBuffer
  by_cases same : k = (s.buffer low).bucket + 1
  · subst k
    simp
  · simp [same]

theorem buffer_mergeBuffers (low high block : Nat) :
    (s.mergeBuffers low high).buffer block =
      if block = low then ⟨(s.buffer low).bucket + 1, (s.buffer low).region⟩ else s.buffer block := by
  unfold Heap.mergeBuffers Heap.listAdd Heap.listDel Heap.setBuffer
  by_cases same : block = low
  · simp [same]
  · simp [same]

end Lists

section Layout
variable {regions : List MmRegion} {s : System}

theorem System.Consistent.layout_free (consistent : s.Consistent regions) {bucket block : Nat}
    (listed : block ∈ s.heap.mmBucket bucket) :
    s.layout block = some ⟨bucket, (s.heap.buffer block).region, true⟩ := by
  have recorded := consistent.recorded bucket block listed
  unfold System.layout
  simp only [recorded, if_pos listed]

theorem System.listed_of_layout {order region block : Nat} (tile : s.layout block = some ⟨order, region, true⟩) :
    block ∈ s.heap.mmBucket order ∧ (s.heap.buffer block).region = region := by
  unfold System.layout at tile
  dsimp only at tile
  split at tile
  · rename_i listed
    obtain ⟨rfl, rfl⟩ : (s.heap.buffer block).bucket = order ∧ (s.heap.buffer block).region = region := by
      simpa using tile
    exact ⟨listed, rfl⟩
  · split at tile <;> simp at tile

section
variable (consistent : s.Consistent regions)
include consistent

theorem System.Consistent.layout_held {block : Nat} (held : block + bufferSize ∈ s.held) :
    s.layout block = some ⟨(s.heap.buffer block).bucket, (s.heap.buffer block).region, false⟩ := by
  unfold System.layout
  dsimp only
  rw [if_neg fun listed => consistent.apart _ block listed held, if_pos held]

theorem System.Consistent.absent {block : Nat} (none : s.layout block = none) :
    (∀ bucket, block ∉ s.heap.mmBucket bucket) ∧ block + bufferSize ∉ s.held := by
  constructor
  · intro bucket listed
    rw [consistent.layout_free listed] at none
    cases none
  · intro held
    rw [consistent.layout_held held] at none
    cases none

theorem System.Consistent.tile_bounds {block : Nat} {tile : Tile Nat} (found : s.layout block = some tile) :
    tile.order ≤ maxAddressableMemOrder ∧ block ≠ 0 := by
  have inside := consistent.tiling.inside block tile found
  obtain ⟨region, placed, low, _⟩ := inside (start_mem_extent block tile.order)
  have positive := Nat.two_pow_pos tile.order
  have last : block + 2 ^ tile.order - 1 ∈ extent block tile.order := by
    rw [mem_extent]
    omega
  obtain ⟨same, placedSame, _, high⟩ := inside last
  obtain rfl : region = same := Option.some.inj (placed.symm.trans placedSame)
  have member := mem_of_getElem? placed
  obtain ⟨order, _, small, size⟩ := (consistent.valid.wellFormed region member).power
  constructor
  · by_contra larger
    have longer : 2 ^ order < 2 ^ tile.order := Nat.pow_lt_pow_right (by omega) (by omega)
    rw [size] at high
    omega
  · have started := consistent.nonNull region member
    omega

theorem System.Consistent.setUsed (used : BitVec 32) :
    (System.mk { s.heap with used := used } s.held).Consistent regions :=
  { consistent with }

theorem System.Consistent.layout_split {order block : Nat} (listed : block ∈ s.heap.mmBucket (order + 1)) :
    System.layout ⟨s.heap.splitBuffer order block, s.held⟩ =
      Layout.split s.layout block order (s.heap.buffer block).region := by
  have tile := consistent.layout_free listed
  have upper := consistent.absent
    (consistent.tiling.upper_none tile (show order < order + 1 by omega))
  funext b
  unfold Layout.split System.layout
  dsimp only
  rw [buffer_splitBuffer, mmBucket_splitBuffer]
  by_cases high : b = block + 2 ^ order
  · subst b
    simp
  · by_cases low : b = block
    · subst b
      simp
    · rw [if_neg (not_or.mpr ⟨low, high⟩), update_of_ne high, update_of_ne low]
      congr 1
      rw [eq_iff_iff]
      split
      · simp [(consistent.once _).mem_erase_iff, low, high]
      · simp [(consistent.once _).mem_erase_iff, low]

theorem System.Consistent.splitBuffer {order block : Nat} (listed : block ∈ s.heap.mmBucket (order + 1)) :
    (System.mk (s.heap.splitBuffer order block) s.held).Consistent regions := by
  have tile := consistent.layout_free listed
  obtain ⟨unlisted, unheld⟩ := consistent.absent
    (consistent.tiling.upper_none tile (show order < order + 1 by omega))
  have member {k b : Nat} (inside : b ∈ (s.heap.splitBuffer order block).mmBucket k) :
      b ∈ s.heap.mmBucket k ∧ b ≠ block ∨ k = order ∧ (b = block ∨ b = block + 2 ^ order) := by
    rw [mmBucket_splitBuffer] at inside
    split at inside
    · rename_i same
      simp only [mem_append, mem_singleton, (consistent.once k).mem_erase_iff] at inside
      tauto
    · rw [(consistent.once k).mem_erase_iff] at inside
      exact .inl ⟨inside.2, inside.1⟩
  constructor
  · exact consistent.added
  · exact consistent.valid
  · exact consistent.nonNull
  · rw [consistent.layout_split listed]
    exact consistent.tiling.split tile rfl
  · intro k b inside
    change ((s.heap.splitBuffer order block).buffer b).bucket = k
    rw [buffer_splitBuffer]
    rcases member inside with ⟨old, apart⟩ | ⟨rfl, half⟩
    · have notHigh : b ≠ block + 2 ^ order := by
        rintro rfl
        exact unlisted k old
      rw [if_neg (not_or.mpr ⟨apart, notHigh⟩)]
      exact consistent.recorded k b old
    · rw [if_pos half]
  · intro k
    change ((s.heap.splitBuffer order block).mmBucket k).Nodup
    rw [mmBucket_splitBuffer]
    have erased := (consistent.once k).erase block
    split
    · have positive := Nat.two_pow_pos order
      have notHigh : block + 2 ^ order ∉ (s.heap.mmBucket k).erase block :=
        fun inside => unlisted k (mem_of_mem_erase inside)
      have notLow : block ∉ (s.heap.mmBucket k).erase block := by
        rw [(consistent.once k).mem_erase_iff]
        simp
      refine (erased.append (nodup_singleton _) (by simpa using notLow)).append
        (nodup_singleton _) ?_
      have different : block + 2 ^ order ≠ block := by omega
      simp only [disjoint_singleton, mem_append, mem_singleton, not_or]
      exact ⟨notHigh, different⟩
    · exact erased
  · intro k b inside
    rcases member inside with ⟨old, _⟩ | ⟨_, rfl | rfl⟩
    · exact consistent.apart k b old
    · exact consistent.apart _ b listed
    · exact unheld
  · exact consistent.pointers

theorem System.Consistent.mergeBuffers {order low : Nat} (listedLow : low ∈ s.heap.mmBucket order)
    (listedHigh : low + 2 ^ order ∈ s.heap.mmBucket order)
    (region : (s.heap.buffer low).region = (s.heap.buffer (low + 2 ^ order)).region) (aligned : 2 ^ (order + 1) ∣ low) :
    (System.mk (s.heap.mergeBuffers low (low + 2 ^ order)) s.held).Consistent regions ∧
      System.layout ⟨s.heap.mergeBuffers low (low + 2 ^ order), s.held⟩ =
        Layout.merge s.layout low order (s.heap.buffer low).region := by
  have recorded := consistent.recorded order low listedLow
  have tileLow := consistent.layout_free listedLow
  have tileHigh := consistent.layout_free listedHigh
  have positive := Nat.two_pow_pos order
  have erased (k : Nat) : (((s.heap.mmBucket k).erase low).erase (low + 2 ^ order)).Nodup :=
    ((consistent.once k).erase low).erase _
  have kept {k b : Nat} : b ∈ ((s.heap.mmBucket k).erase low).erase (low + 2 ^ order) ↔
      b ∈ s.heap.mmBucket k ∧ b ≠ low ∧ b ≠ low + 2 ^ order := by
    rw [((consistent.once k).erase low).mem_erase_iff, (consistent.once k).mem_erase_iff]
    tauto
  have member {k b : Nat} :
      b ∈ (s.heap.mergeBuffers low (low + 2 ^ order)).mmBucket k ↔
        b ∈ s.heap.mmBucket k ∧ b ≠ low ∧ b ≠ low + 2 ^ order ∨ k = order + 1 ∧ b = low := by
    rw [mmBucket_mergeBuffers, recorded]
    split
    · rename_i same
      simp only [mem_append, mem_singleton, kept, same, true_and]
    · rename_i different
      simp only [kept, different, false_and, or_false]
  have merged : System.layout ⟨s.heap.mergeBuffers low (low + 2 ^ order), s.held⟩ =
      Layout.merge s.layout low order (s.heap.buffer low).region := by
    funext b
    unfold Layout.merge System.layout
    dsimp only
    rw [buffer_mergeBuffers]
    by_cases here : b = low
    · subst b
      simp [member, recorded]
    · rw [if_neg here, update_of_ne here]
      by_cases high : b = low + 2 ^ order
      · subst b
        have unheld := consistent.apart order _ listedHigh
        simp [member, unheld]
      · simp [member, here, high]
  refine ⟨?_, merged⟩
  constructor
  · exact consistent.added
  · exact consistent.valid
  · exact consistent.nonNull
  · rw [merged]
    exact consistent.tiling.merge tileLow tileHigh rfl region.symm aligned
  · intro k b inside
    change ((s.heap.mergeBuffers low (low + 2 ^ order)).buffer b).bucket = k
    rw [buffer_mergeBuffers]
    rcases member.mp inside with ⟨old, apart, _⟩ | ⟨rfl, rfl⟩
    · rw [if_neg apart]
      exact consistent.recorded k b old
    · rw [if_pos rfl, recorded]
  · intro k
    change ((s.heap.mergeBuffers low (low + 2 ^ order)).mmBucket k).Nodup
    rw [mmBucket_mergeBuffers]
    split
    · refine (erased k).append (nodup_singleton _) ?_
      rw [disjoint_singleton, kept]
      exact fun inside => inside.2.1 rfl
    · exact erased k
  · intro k b inside
    rcases member.mp inside with ⟨old, _⟩ | ⟨_, rfl⟩
    · exact consistent.apart k b old
    · exact consistent.apart order b listedLow
  · exact consistent.pointers

theorem System.Consistent.take {order block : Nat} (listed : block ∈ s.heap.mmBucket order) :
    (System.mk (s.heap.listDel block) (insert (block + bufferSize) s.held)).Consistent regions ∧
      System.layout ⟨s.heap.listDel block, insert (block + bufferSize) s.held⟩ =
        Layout.mark s.layout block false := by
  have member {k b : Nat} : b ∈ (s.heap.listDel block).mmBucket k ↔ b ∈ s.heap.mmBucket k ∧ b ≠ block :=
    mem_listDel s.heap consistent.once
  have marked : System.layout ⟨s.heap.listDel block, insert (block + bufferSize) s.held⟩ =
      Layout.mark s.layout block false := by
    funext b
    unfold Layout.mark
    by_cases same : b = block
    · subst b
      rw [update_self, consistent.layout_free listed]
      unfold System.layout
      simp [member, consistent.recorded order block listed]
    · rw [update_of_ne same]
      unfold System.layout
      simp [member, same]
  refine ⟨?_, marked⟩
  constructor
  · exact consistent.added
  · exact consistent.valid
  · exact consistent.nonNull
  · rw [marked]
    exact consistent.tiling.mark block false
  · intro k b inside
    exact consistent.recorded k b (member.mp inside).1
  · exact nodup_listDel s.heap consistent.once block
  · intro k b inside
    obtain ⟨old, different⟩ := member.mp inside
    simpa [different] using consistent.apart k b old
  · intro ptr inside
    rcases Finset.mem_insert.mp inside with rfl | old
    · omega
    · exact consistent.pointers ptr old

theorem System.Consistent.release {block : Nat} (held : block + bufferSize ∈ s.held) :
    (System.mk (s.heap.listAdd (s.heap.buffer block).bucket block)
        (s.held.erase (block + bufferSize))).Consistent regions ∧
      System.layout ⟨s.heap.listAdd (s.heap.buffer block).bucket block,
        s.held.erase (block + bufferSize)⟩ = Layout.mark s.layout block true := by
  have unlisted (k : Nat) : block ∉ s.heap.mmBucket k :=
    fun listed => consistent.apart k block listed held
  have member {k b : Nat} : b ∈ (s.heap.listAdd (s.heap.buffer block).bucket block).mmBucket k ↔
      b ∈ s.heap.mmBucket k ∨ k = (s.heap.buffer block).bucket ∧ b = block := mem_listAdd s.heap
  have marked : System.layout ⟨s.heap.listAdd (s.heap.buffer block).bucket block,
      s.held.erase (block + bufferSize)⟩ = Layout.mark s.layout block true := by
    funext b
    unfold Layout.mark
    by_cases same : b = block
    · subst b
      rw [update_self, consistent.layout_held held]
      unfold System.layout
      simp [member]
    · rw [update_of_ne same]
      unfold System.layout
      simp [member, same]
  refine ⟨?_, marked⟩
  constructor
  · exact consistent.added
  · exact consistent.valid
  · exact consistent.nonNull
  · rw [marked]
    exact consistent.tiling.mark block true
  · intro k b inside
    rcases member.mp inside with old | ⟨rfl, rfl⟩
    · exact consistent.recorded k b old
    · rfl
  · exact nodup_listAdd s.heap consistent.once (unlisted _)
  · intro k b inside
    rcases member.mp inside with old | ⟨rfl, rfl⟩
    · exact fun kept => consistent.apart k b old (Finset.mem_of_mem_erase kept)
    · exact Finset.notMem_erase _ _
  · exact fun ptr inside => consistent.pointers ptr (Finset.mem_of_mem_erase inside)

end

end Layout

end Phabos.Mm
