import Phabos.Proof.Mm.Allocation
import Phabos.Proof.Mm.BuddyHeap

namespace Phabos.Mm
open Library Option
variable {regions : List MmRegion}

/-- The pointers after the headers of all blocks that are in use. -/
def Clients.pointers (s : Clients) : Finset Nat := s.held ∪ s.pages.image fun page => page.1 + bufferSize

/-- The heap is one with intact headers of the pages, apart from what the clients wrote to their bytes. -/
structure Clients.Sound (regions : List MmRegion) (s : Clients) (intact : Heap) : Prop where
  invariant : (System.mk intact s.pointers).HeapInvariant regions
  agree : s.heap.Agree {block | block + bufferSize ∈ s.held} intact
  pages : ∀ page ∈ s.pages, (intact.buffer page.1).bucket = page.2 + PAGE_ORDER
  apart : ∀ page ∈ s.pages, page.1 + bufferSize ∉ s.held

section Blocks
variable {held : Finset Nat} {s : Heap} {block other : Nat}

theorem Clients.mem_pointers {s : Clients} {ptr : Nat} :
    ptr ∈ s.pointers ↔ ptr ∈ s.held ∨ ∃ page ∈ s.pages, page.1 + bufferSize = ptr := by
  unfold Clients.pointers
  rw [Finset.mem_union, Finset.mem_image]

theorem MmRegion.WellFormed.end_le {region : MmRegion} (wellFormed : region.WellFormed) :
    region.start + region.size ≤ 2 ^ 32 := by
  obtain ⟨order, -, small, size⟩ := wellFormed.power
  have divides : 2 ^ order ∣ 2 ^ 32 := Nat.pow_dvd_pow 2 (Nat.le_trans small (by decide))
  have aligned := wellFormed.aligned
  have bounded := wellFormed.bounded
  rw [size] at aligned ⊢
  obtain ⟨index, place⟩ := aligned
  obtain ⟨count, whole⟩ := divides
  have positive := Nat.two_pow_pos order
  rw [place, whole, Nat.mul_lt_mul_left positive] at bounded
  rw [place, whole, ← Nat.mul_succ]
  exact Nat.mul_le_mul_left _ bounded

section
variable (consistent : (System.mk s held).Consistent regions)
include consistent

theorem System.Consistent.tile_region {tile : Tile Nat} (found : System.layout ⟨s, held⟩ block = some tile) :
    ∃ region, regions[tile.owner]? = some region ∧ region.start ≤ block ∧
      block + 2 ^ tile.order ≤ region.start + region.size := by
  have inside := consistent.tiling.inside block tile found
  obtain ⟨region, placed, low, -⟩ := inside (start_mem_extent block tile.order)
  have positive := Nat.two_pow_pos tile.order
  have last : block + 2 ^ tile.order - 1 ∈ extent block tile.order := by
    rw [mem_extent]
    omega
  obtain ⟨same, placedSame, -, high⟩ := inside last
  obtain rfl : region = same := some.inj (placed.symm.trans placedSame)
  exact ⟨region, placed, low, by omega⟩

theorem System.Consistent.tile_end {tile : Tile Nat} (found : System.layout ⟨s, held⟩ block = some tile) :
    block + 2 ^ tile.order ≤ 2 ^ 32 := by
  obtain ⟨region, placed, -, last⟩ := consistent.tile_region found
  exact Nat.le_trans last (consistent.valid.wellFormed region (List.mem_of_getElem? placed)).end_le

theorem System.Consistent.listed_outside {bucket address : Nat} (inside : block + bufferSize ∈ held)
    (covers : address ∈ extent block (s.buffer block).bucket) : address ∉ s.mmBucket bucket := by
  intro listed
  have same := consistent.tiling.apart block address _ _ address (consistent.layout_held inside)
    (consistent.layout_free listed) covers (start_mem_extent _ _)
  exact consistent.apart bucket address listed (same ▸ inside)

theorem System.Consistent.held_outside (inside : block + bufferSize ∈ held)
    (covers : other ∈ extent block (s.buffer block).bucket) (alsoHeld : other + bufferSize ∈ held) : block = other :=
  consistent.tiling.apart block other _ _ other (consistent.layout_held inside)
    (consistent.layout_held alsoHeld) covers (start_mem_extent _ _)

end

end Blocks

section Steps
variable {s next : Clients} {intact : Heap}

theorem sound_boot (valid : ValidRegions regions) (nonNull : ∀ region ∈ regions, region.start ≠ 0) :
    (Clients.boot regions).Sound regions (System.boot regions).heap where
  invariant := (boot_heapInvariant regions valid nonNull).1
  agree := .refl _ _
  pages := fun page there => absurd there (Finset.notMem_empty page)
  apart := fun page there => absurd there (Finset.notMem_empty page)

theorem pointers_afterKmalloc (s : Clients) (result : Nat × Heap) :
    (s.afterKmalloc result).pointers = if result.1 = 0 then s.pointers else insert result.1 s.pointers := by
  unfold Clients.afterKmalloc Clients.pointers
  split
  · rfl
  · exact Finset.insert_union ..

theorem pointers_afterPageAlloc (s : Clients) (order : Nat) (result : Nat × Heap) :
    (s.afterPageAlloc order result).pointers =
      if result.1 = nullPage then s.pointers else insert (result.1 + bufferSize) s.pointers := by
  unfold Clients.afterPageAlloc Clients.pointers
  dsimp only
  split
  · rfl
  · rw [Finset.image_insert, Finset.union_insert]

section
variable (sound : s.Sound regions intact)
include sound

theorem Clients.Sound.pointers_erase {ptr : Nat} (inside : ptr ∈ s.held) (heap : Heap) :
    Clients.pointers ⟨heap, s.held.erase ptr, s.pages⟩ = s.pointers.erase ptr := by
  ext other
  rw [Finset.mem_erase, Clients.mem_pointers, Clients.mem_pointers]
  dsimp only
  rw [Finset.mem_erase]
  constructor
  · rintro (⟨different, old⟩ | ⟨page, there, rfl⟩)
    · exact ⟨different, .inl old⟩
    · exact ⟨fun equal => sound.apart page there (equal ▸ inside), .inr ⟨page, there, rfl⟩⟩
  · rintro ⟨different, old | page⟩
    · exact .inl ⟨different, old⟩
    · exact .inr page

theorem Clients.Sound.kmalloc (size flags : BitVec 32) :
    (s.afterKmalloc (Mm.kmalloc s.heap size flags)).Sound regions (Mm.kmalloc intact size flags).2 := by
  obtain ⟨same, agree⟩ := sound.agree.kmalloc sound.invariant size flags
  have outcome := kmalloc_outcome sound.invariant size flags
  have pointers := pointers_afterKmalloc s (Mm.kmalloc s.heap size flags)
  unfold Clients.afterKmalloc at pointers ⊢
  rw [same] at pointers ⊢
  have nothing {later : Heap} (lists : (System.mk later s.pointers).HeapInvariant regions)
      (headers : later.buffer = intact.buffer) (failed : Mm.kmalloc intact size flags = (0, later)) :
      ({ s with
        heap := (Mm.kmalloc s.heap size flags).2
        held := if (Mm.kmalloc intact size flags).1 = 0 then s.held
          else insert (Mm.kmalloc intact size flags).1 s.held } : Clients).Sound regions
        (Mm.kmalloc intact size flags).2 := by
    rw [failed] at agree ⊢
    exact ⟨lists, agree, fun page there => (congrArg MmBuffer.bucket (congrFun headers page.1)).trans
      (sound.pages page there), sound.apart⟩
  split at outcome
  · exact nothing sound.invariant rfl outcome
  · split at outcome
    · obtain ⟨block, later, returned, allocated⟩ := outcome
      have nonNull : block + bufferSize ≠ 0 := by
        unfold bufferSize
        omega
      rw [returned] at agree ⊢
      rw [if_neg nonNull] at agree
      simp only [if_neg nonNull]
      refine ⟨?_, agree.mono ?_, fun page there => ?_, fun page there kept => ?_⟩
      · rw [returned, if_neg nonNull, if_neg nonNull] at pointers
        rw [pointers]
        exact allocated.kept
      · intro other inside
        rcases Finset.mem_insert.mp inside with equal | old
        · exact .inl (Nat.add_right_cancel equal)
        · exact .inr old
      · have before : page.1 + bufferSize ∈ s.pointers := Clients.mem_pointers.mpr (.inr ⟨page, there, rfl⟩)
        exact (congrArg MmBuffer.bucket (allocated.frame.header page.1 before)).trans (sound.pages page there)
      · rcases Finset.mem_insert.mp kept with equal | old
        · exact allocated.fresh (Clients.mem_pointers.mpr (.inr ⟨page, there, equal⟩))
        · exact sound.apart page there old
    · exact nothing (sound.invariant.counted _) rfl outcome

theorem Clients.Sound.kfree {ptr : Nat} (inside : ptr ∈ s.held) :
    ({ s with heap := Mm.kfree s.heap ptr, held := s.held.erase ptr } : Clients).Sound regions
      (Mm.kfree intact ptr) := by
  have before : ptr ∈ s.pointers := Clients.mem_pointers.mpr (.inl inside)
  have large := sound.invariant.consistent.pointers ptr before
  obtain ⟨block, rfl⟩ : ∃ block, ptr = block + bufferSize := ⟨ptr - bufferSize, by omega⟩
  have frame := kfree_frame sound.invariant before
  have outside (page : Nat × Nat) (there : page ∈ s.pages) : page.1 + bufferSize ∈
      s.pointers.erase (block + bufferSize) :=
    Finset.mem_erase.mpr ⟨fun equal => sound.apart page there (equal ▸ inside),
      Clients.mem_pointers.mpr (.inr ⟨page, there, rfl⟩)⟩
  refine ⟨?_, ?_, fun page there => ?_, fun page there kept => ?_⟩
  · rw [sound.pointers_erase inside]
    exact kfree_keeps before sound.invariant
  · exact (sound.agree.kfree (sound.agree.header block inside) fun bucket listed =>
      sound.invariant.consistent.apart bucket block listed before).mono fun other kept =>
        (Finset.mem_erase.mp kept).2
  · exact (congrArg MmBuffer.bucket (frame.header page.1 (outside page there))).trans (sound.pages page there)
  · exact sound.apart page there (Finset.mem_erase.mp kept).2

theorem Clients.Sound.write {address : Nat} (owned : s.Owns address) (header : MmBuffer) :
    ({ s with heap := s.heap.setBuffer address header } : Clients).Sound regions intact := by
  have consistent := sound.invariant.consistent
  obtain ⟨unlisted, unheld⟩ : (∀ bucket, address ∉ intact.mmBucket bucket) ∧
      address + bufferSize ∉ s.held := by
    rcases owned with ⟨ptr, inside, low, high⟩ | ⟨page, inside, low, high⟩
    · have before : ptr ∈ s.pointers := Clients.mem_pointers.mpr (.inl inside)
      have large := consistent.pointers ptr before
      obtain ⟨block, rfl⟩ : ∃ block, ptr = block + bufferSize := ⟨ptr - bufferSize, by omega⟩
      rw [Nat.add_sub_cancel, sound.agree.header block inside] at high
      have covers : address ∈ extent block (intact.buffer block).bucket := mem_extent.mpr ⟨by omega, high⟩
      refine ⟨fun bucket => consistent.listed_outside before covers, fun alsoHeld => ?_⟩
      have same := consistent.held_outside before covers (Clients.mem_pointers.mpr (.inl alsoHeld))
      unfold bufferSize at low
      omega
    · have before : page.1 + bufferSize ∈ s.pointers := Clients.mem_pointers.mpr (.inr ⟨page, inside, rfl⟩)
      have covers : address ∈ extent page.1 (intact.buffer page.1).bucket := by
        rw [sound.pages page inside]
        exact mem_extent.mpr ⟨low, high⟩
      refine ⟨fun bucket => consistent.listed_outside before covers, fun alsoHeld => ?_⟩
      have same := consistent.held_outside before covers (Clients.mem_pointers.mpr (.inl alsoHeld))
      exact sound.apart page inside (same ▸ alsoHeld)
  have untouched (block : Nat) (other : block ≠ address) :
      (s.heap.setBuffer address header).buffer block = s.heap.buffer block := Function.update_of_ne other _ _
  refine { sound with
    agree := { sound.agree with listed := fun bucket block inside => ?_, header := fun block kept => ?_ } }
  · rw [untouched block fun equal => unlisted bucket (sound.agree.buckets ▸ equal ▸ inside)]
    exact sound.agree.listed bucket block inside
  · rw [untouched block fun equal => unheld (equal ▸ kept)]
    exact sound.agree.header block kept

end

end Steps

section Pages
variable {held : Finset Nat} {s : Heap} {order page : Nat} {flags : BitVec 32}

theorem page_sizes : ∀ order ≤ maxAddressableMemOrder, PAGE_ORDER ≤ order →
    ((1#32 <<< (order - PAGE_ORDER)) <<< PAGE_ORDER - BitVec.ofNat 32 bufferSize).toNat + bufferSize = 2 ^ order ∧
      pageBytes (order - PAGE_ORDER) = 2 ^ order := by decide +kernel

theorem pageBytes_eq (short : order + PAGE_ORDER ≤ maxAddressableMemOrder) :
    pageBytes order = 2 ^ (order + PAGE_ORDER) := by
  have sizes := (page_sizes _ short (Nat.le_add_left ..)).2
  rwa [Nat.add_sub_cancel] at sizes

theorem Allocated.bounds {block : Nat} {next : Heap} (allocated : Allocated regions held order flags s block next) :
    block ≠ 0 ∧ 2 ^ order ∣ block ∧ block + 2 ^ order ≤ 2 ^ 32 := by
  have tile := allocated.kept.consistent.layout_held (Finset.mem_insert_self _ _)
  have nonNull := (allocated.kept.consistent.tile_bounds tile).2
  have last := allocated.kept.consistent.tile_end tile
  have aligned := allocated.kept.consistent.tiling.aligned block _ tile
  dsimp only at last aligned
  rw [allocated.bucket] at last aligned
  exact ⟨nonNull, aligned, last⟩

theorem page_request (short : order + PAGE_ORDER ≤ maxAddressableMemOrder) :
    (1#32 <<< order) <<< PAGE_ORDER - BitVec.ofNat 32 bufferSize ≠ 0 ∧
      requestOrder ((1#32 <<< order) <<< PAGE_ORDER - BitVec.ofNat 32 bufferSize) = order + PAGE_ORDER := by
  have whole := (page_sizes _ short (Nat.le_add_left ..)).1
  rw [Nat.add_sub_cancel] at whole
  have wraps : 2 ^ (order + PAGE_ORDER) < 2 ^ 32 :=
    Nat.pow_lt_pow_right (by decide) (Nat.lt_of_le_of_lt short (by decide))
  have large : 2 ^ PAGE_ORDER ≤ 2 ^ (order + PAGE_ORDER) := Nat.pow_le_pow_right (by decide) (Nat.le_add_left ..)
  constructor
  · intro none
    rw [none] at whole
    have header : bufferSize < 2 ^ PAGE_ORDER := by decide
    change 0 + bufferSize = _ at whole
    omega
  · rw [requestOrder_eq_clog (whole ▸ wraps), whole, Nat.clog_pow 2 _ (by decide)]

theorem pageAlloc_outcome (invariant : (System.mk s held).HeapInvariant regions)
    (short : order + PAGE_ORDER ≤ maxAddressableMemOrder) (flags : BitVec 32) :
    if s.Meets (order + PAGE_ORDER) flags then
      ∃ block next, pageAlloc s flags order = (block, next) ∧ block ≠ 0 ∧ block ≠ nullPage ∧
        Allocated regions held (order + PAGE_ORDER)
          (if s.CanSupply (order + PAGE_ORDER) flags then flags else MM_DMA) (s.counted (order + PAGE_ORDER))
          block next
    else pageAlloc s flags order = (nullPage, s.counted (order + PAGE_ORDER)) := by
  obtain ⟨some, same⟩ := page_request short
  have outcome := kmalloc_outcome invariant ((1#32 <<< order) <<< PAGE_ORDER - BitVec.ofNat 32 bufferSize) flags
  rw [if_neg some, same] at outcome
  unfold pageAlloc
  dsimp only
  split
  · rename_i meets
    rw [if_pos ⟨short, meets⟩] at outcome
    obtain ⟨block, next, returned, allocated⟩ := outcome
    obtain ⟨nonNull, aligned, last⟩ := allocated.bounds
    have page : 2 ^ PAGE_ORDER ∣ block := Nat.dvd_trans (Nat.pow_dvd_pow 2 (Nat.le_add_left ..)) aligned
    have address : (block + bufferSize + nullPage) % 2 ^ 32 = block := by
      unfold bufferSize nullPage bufferSize
      omega
    refine ⟨block, next, ?_, nonNull, ?_, allocated⟩
    · rw [returned]
      exact congrArg (·, next) address
    · rintro rfl
      unfold nullPage bufferSize PAGE_ORDER at page
      omega
  · rename_i fails
    rw [if_neg fun both => fails both.2] at outcome
    have null : (0 + nullPage) % 2 ^ 32 = nullPage := by decide +kernel
    exact (congrArg (fun result : Nat × Heap => ((result.1 + nullPage) % 2 ^ 32, result.2)) outcome).trans
      (congrArg (·, s.counted (order + PAGE_ORDER)) null)

theorem ValidRegions.position_unique (valid : ValidRegions regions) {first second x : Nat} {one other : MmRegion}
    (placedOne : regions[first]? = some one) (placedOther : regions[second]? = some other)
    (insideOne : one.start ≤ x ∧ x < one.start + one.size)
    (insideOther : other.start ≤ x ∧ x < other.start + other.size) : first = second := by
  obtain ⟨boundOne, rfl⟩ := List.getElem?_eq_some_iff.mp placedOne
  obtain ⟨boundOther, rfl⟩ := List.getElem?_eq_some_iff.mp placedOther
  have apart := List.pairwise_iff_getElem.mp valid.disjoint
  rcases Nat.lt_trichotomy first second with before | same | after
  · exact (apart first second boundOne boundOther before x insideOne.1 insideOne.2 insideOther.1
      insideOther.2).elim
  · exact same
  · exact (apart second first boundOther boundOne after x insideOther.1 insideOther.2 insideOne.1
      insideOne.2).elim

theorem pageRegion_eq (valid : ValidRegions regions) (added : s.mmRegionList = regions) {position : Nat}
    {region : MmRegion} (placed : regions[position]? = some region) (size : Nat)
    (low : region.start ≤ page) (high : page + size ≤ region.start + region.size) (positive : 0 < size) :
    s.pageRegion page size = if region.start + region.size = 2 ^ 32 then none else some position := by
  have wellFormed := valid.wellFormed region (List.mem_of_getElem? placed)
  have last := wellFormed.end_le
  have inside : region.start ≤ page ∧ page < region.start + region.size := ⟨low, by omega⟩
  unfold Heap.pageRegion
  rw [added]
  cases found : regions.zipIdx.find? fun reg => decide (reg.1.start ≤ page) && decide (page < reg.1.limit) with
  | none =>
    have missing := List.find?_eq_none.mp found (region, position)
      (List.mem_zipIdx_iff_getElem?.mpr placed)
    rw [Bool.and_eq_true, decide_eq_true_iff, decide_eq_true_iff, not_and, Nat.not_lt] at missing
    have wraps : region.limit ≤ page := missing low
    unfold MmRegion.limit at wraps
    dsimp only
    rw [if_pos (by omega)]
  | some other =>
    obtain ⟨other, index⟩ := other
    have there := List.mem_zipIdx_iff_getElem?.mp (List.mem_of_find?_eq_some found)
    have meets := List.find?_some found
    rw [Bool.and_eq_true, decide_eq_true_iff, decide_eq_true_iff] at meets
    dsimp only at meets
    have bound : other.limit ≤ other.start + other.size := Nat.mod_le ..
    obtain rfl := valid.position_unique placed there inside ⟨meets.1, Nat.lt_of_lt_of_le meets.2 bound⟩
    obtain rfl : region = other := some.inj (placed.symm.trans there)
    have fits := meets.2
    unfold MmRegion.limit at fits ⊢
    dsimp only
    rw [if_neg (by omega), if_neg (by omega)]

end Pages

section Reachable
variable {s next : Clients} {intact : Heap}

theorem pageAlloc_eq (heap : Heap) (flags : BitVec 32) (order : Nat) :
    pageAlloc heap flags order =
      (((kmalloc heap ((1#32 <<< order) <<< PAGE_ORDER - BitVec.ofNat 32 bufferSize) flags).1 + nullPage) % 2 ^ 32,
        (kmalloc heap ((1#32 <<< order) <<< PAGE_ORDER - BitVec.ofNat 32 bufferSize) flags).2) := by
  unfold pageAlloc
  dsimp only

theorem Heap.Agree.pageAlloc {kept : Set Nat} {held : Finset Nat} {heap : Heap} (agree : heap.Agree kept intact)
    (invariant : (System.mk intact held).HeapInvariant regions) (flags : BitVec 32) (order : Nat) :
    (pageAlloc heap flags order).1 = (pageAlloc intact flags order).1 ∧
      (pageAlloc heap flags order).2.Agree kept (pageAlloc intact flags order).2 := by
  obtain ⟨same, later⟩ :=
    agree.kmalloc invariant ((1#32 <<< order) <<< PAGE_ORDER - BitVec.ofNat 32 bufferSize) flags
  rw [pageAlloc_eq, pageAlloc_eq, same]
  refine ⟨rfl, later.mono ?_⟩
  split
  · exact subset_rfl
  · exact Set.subset_insert _ _

theorem Heap.Agree.setBuffer {kept : Set Nat} {heap : Heap} (agree : heap.Agree kept intact) (block : Nat) :
    (heap.setBuffer block (intact.buffer block)).Agree kept intact := by
  have same (other : Nat) (old : heap.buffer other = intact.buffer other) :
      (heap.setBuffer block (intact.buffer block)).buffer other = intact.buffer other := by
    unfold Heap.setBuffer
    by_cases here : other = block
    · rw [here]
      exact Function.update_self _ _ _
    · exact (Function.update_of_ne here _ _).trans old
  exact { agree with
    listed := fun bucket other inside => same other (agree.listed bucket other inside)
    header := fun other inside => same other (agree.header other inside) }

theorem Clients.Sound.page (sound : s.Sound regions intact) {page order : Nat} (there : (page, order) ∈ s.pages) :
    order + PAGE_ORDER ≤ maxAddressableMemOrder ∧
      (∀ position, s.heap.pageRegion page (pageBytes order) = some position →
        MmBuffer.mk (sizeToOrder (pageBytes order)).toNat position = intact.buffer page) := by
  have consistent := sound.invariant.consistent
  have before : page + bufferSize ∈ s.pointers := Clients.mem_pointers.mpr (.inr ⟨_, there, rfl⟩)
  have tile := consistent.layout_held before
  have bucket : (intact.buffer page).bucket = order + PAGE_ORDER := sound.pages _ there
  have short := (consistent.tile_bounds tile).1
  dsimp only at short
  rw [bucket] at short
  refine ⟨short, fun position found => ?_⟩
  obtain ⟨region, placed, low, high⟩ := consistent.tile_region tile
  dsimp only at placed high
  rw [bucket] at high
  rw [pageBytes_eq short, pageRegion_eq consistent.valid (sound.agree.regions.trans consistent.added) placed _ low
    high (Nat.two_pow_pos _)] at found
  have same := (ite_none_left_eq_some.mp found).2
  obtain rfl := some.inj same
  rw [pageBytes_eq short, (order_of_power _ short).2, Int.toNat_natCast, ← bucket]

theorem Clients.Sound.pageAlloc (sound : s.Sound regions intact) (flags : BitVec 32) {order : Nat}
    (short : order + PAGE_ORDER ≤ maxAddressableMemOrder) :
    (s.afterPageAlloc order (Mm.pageAlloc s.heap flags order)).Sound regions
      (Mm.pageAlloc intact flags order).2 := by
  obtain ⟨same, agree⟩ := sound.agree.pageAlloc sound.invariant flags order
  have outcome := pageAlloc_outcome sound.invariant short flags
  have pointers := pointers_afterPageAlloc s order (Mm.pageAlloc s.heap flags order)
  unfold Clients.afterPageAlloc at pointers ⊢
  rw [same] at pointers ⊢
  split at outcome
  · obtain ⟨block, later, returned, -, real, allocated⟩ := outcome
    rw [returned] at agree pointers ⊢
    dsimp only at agree pointers ⊢
    rw [if_neg real, if_neg real] at pointers
    rw [if_neg real]
    refine ⟨?_, ?_, fun page there => ?_, fun page there kept => ?_⟩
    · rw [pointers]
      exact allocated.kept
    · dsimp only
      exact agree
    · rcases Finset.mem_insert.mp there with rfl | old
      · exact allocated.bucket
      · have before : page.1 + bufferSize ∈ s.pointers := Clients.mem_pointers.mpr (.inr ⟨page, old, rfl⟩)
        exact (congrArg MmBuffer.bucket (allocated.frame.header page.1 before)).trans (sound.pages page old)
    · rcases Finset.mem_insert.mp there with rfl | old
      · exact allocated.fresh (Clients.mem_pointers.mpr (.inl kept))
      · exact sound.apart page old kept
  · rw [outcome] at agree ⊢
    dsimp only at agree ⊢
    rw [if_pos rfl]
    refine ⟨sound.invariant.counted _, ?_, sound.pages, sound.apart⟩
    dsimp only
    exact agree

theorem Clients.Sound.pageFree (sound : s.Sound regions intact) {page order : Nat} (there : (page, order) ∈ s.pages) :
    (s.afterPageFree page order).Sound regions
      (if (s.heap.pageRegion page (pageBytes order)).isSome then Mm.kfree intact (page + bufferSize) else intact) ∧
      (s.afterPageFree page order).pointers =
        if (s.heap.pageRegion page (pageBytes order)).isSome then s.pointers.erase (page + bufferSize)
        else s.pointers := by
  have before : page + bufferSize ∈ s.pointers := Clients.mem_pointers.mpr (.inr ⟨_, there, rfl⟩)
  have apart (bucket : Nat) : page ∉ intact.mmBucket bucket :=
    fun listed => sound.invariant.consistent.apart bucket page listed before
  have header := (sound.page there).2
  unfold Clients.afterPageFree Mm.pageFree
  cases found : s.heap.pageRegion page (pageBytes order) with
  | none => exact ⟨sound, rfl⟩
  | some position =>
    simp only [isSome_some, if_true]
    rw [header position found]
    have frame := kfree_frame sound.invariant before
    have different (other : Nat × Nat) (inside : other ∈ s.pages) (apart : other ≠ (page, order)) :
        other.1 ≠ page := by
      rintro rfl
      have one := sound.pages other inside
      have two := sound.pages _ there
      dsimp only at two
      exact apart (Prod.ext rfl (Nat.add_right_cancel (one.symm.trans two)))
    have outside (other : Nat × Nat) (inside : other ∈ s.pages) (apart : other ≠ (page, order)) :
        other.1 + bufferSize ∈ s.pointers.erase (page + bufferSize) :=
      Finset.mem_erase.mpr ⟨fun equal => different other inside apart (Nat.add_right_cancel equal),
        Clients.mem_pointers.mpr (.inr ⟨other, inside, rfl⟩)⟩
    have pointers : Clients.pointers ⟨Mm.kfree (s.heap.setBuffer page (intact.buffer page)) (page + bufferSize),
        s.held, s.pages.erase (page, order)⟩ = s.pointers.erase (page + bufferSize) := by
      ext ptr
      rw [Finset.mem_erase, Clients.mem_pointers, Clients.mem_pointers]
      dsimp only
      constructor
      · rintro (old | ⟨other, inside, rfl⟩)
        · exact ⟨fun equal => sound.apart _ there (equal ▸ old), .inl old⟩
        · obtain ⟨unequal, old⟩ := Finset.mem_erase.mp inside
          exact ⟨(Finset.mem_erase.mp (outside other old unequal)).1, .inr ⟨other, old, rfl⟩⟩
      · rintro ⟨unequal, old | ⟨other, inside, rfl⟩⟩
        · exact .inl old
        · refine .inr ⟨other, Finset.mem_erase.mpr ⟨fun equal => unequal ?_, inside⟩, rfl⟩
          rw [equal]
    refine ⟨⟨?_, ?_, fun other inside => ?_, fun other inside => ?_⟩, pointers⟩
    · rw [pointers]
      exact kfree_keeps before sound.invariant
    · exact (sound.agree.setBuffer page).kfree (Function.update_self _ _ _) apart
    · obtain ⟨unequal, old⟩ := Finset.mem_erase.mp inside
      exact (congrArg MmBuffer.bucket (frame.header other.1 (outside other old unequal))).trans
        (sound.pages other old)
    · exact sound.apart other (Finset.mem_erase.mp inside).2

/-- A short request keeps the heap sound under all writes of the clients. -/
theorem Clients.Sound.step {request : Request} (sound : s.Sound regions intact) (short : request.Short)
    (stepped : Clients.step s request = some next) : ∃ intact, next.Sound regions intact := by
  cases request with
  | kmalloc size flags =>
    obtain ⟨-, rfl⟩ := ite_some_none_eq_some.mp stepped
    exact ⟨_, sound.kmalloc size flags⟩
  | kfree ptr =>
    simp only [Clients.step] at stepped
    split at stepped
    · obtain rfl := some.inj stepped
      exact ⟨intact, sound⟩
    · obtain ⟨inside, rfl⟩ := ite_some_none_eq_some.mp stepped
      exact ⟨_, sound.kfree inside⟩
  | pageAlloc flags order =>
    obtain ⟨-, rfl⟩ := ite_some_none_eq_some.mp stepped
    exact ⟨_, sound.pageAlloc flags short⟩
  | pageFree page order =>
    obtain ⟨there, rfl⟩ := ite_some_none_eq_some.mp stepped
    exact ⟨_, (sound.pageFree there).1⟩
  | write address header =>
    simp only [Clients.step, ite_none_right_eq_some] at stepped
    obtain rfl := some.inj stepped.2
    exact ⟨intact, sound.write stepped.1 header⟩

theorem Clients.Sound.run (sound : s.Sound regions intact) {requests : List Request} {later : Clients}
    (ran : Library.run Clients.step s requests = some later) (short : ∀ request ∈ requests, request.Short) :
    ∃ intact, later.Sound regions intact := by
  have short : Guarded Clients.step (fun _ request => request.Short) s requests :=
    .of_forall fun request there _ => short request there
  exact run_invariant_of_guarded (fun s => ∃ intact, s.Sound regions intact) ⟨intact, sound⟩ short ran
    fun ⟨_, sound⟩ => sound.step

/-- The heap of any clients is sound after requests that are short. -/
theorem sound_of_run (valid : ValidRegions regions) (nonNull : ∀ region ∈ regions, region.start ≠ 0)
    {requests : List Request} (ran : run Clients.step (.boot regions) requests = some s)
    (short : ∀ request ∈ requests, request.Short) : ∃ intact, s.Sound regions intact :=
  (sound_boot valid nonNull).run ran short

end Reachable

end Phabos.Mm
