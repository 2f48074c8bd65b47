import Phabos.Proof.Mm.FirstFit
import Phabos.Proof.Mm.Requests

namespace Phabos.Mm
open Library
variable {regions : List MmRegion}

/-- The pages of a request are a block of their size in a region, which meets no other block. -/
def Clients.Paged (regions : List MmRegion) (s : Clients) (order : Nat) (result : Nat × Heap) : Prop :=
  (∃ region ∈ regions, region.start ≤ result.1 ∧ result.1 + 2 ^ order * PAGE_SIZE ≤ region.start + region.size) ∧
    ∀ other size, (s.afterPageAlloc order result).Block other size → other ≠ result.1 →
      ∀ x, result.1 ≤ x → x < result.1 + 2 ^ order * PAGE_SIZE → x ∉ extent other size

/-- In every later heap `page_free` takes the pages back like `kfree` would with the header that they had at first. -/
def Clients.TakenBack (s : Clients) (order : Nat) (result : Nat × Heap) : Prop :=
  ∀ requests later, run Clients.step (s.afterPageAlloc order result) requests = some later →
    (∀ request ∈ requests, request.Short) → (result.1, order) ∈ later.pages →
    pageFree later.heap result.1 order =
      kfree (later.heap.setBuffer result.1 (result.2.buffer result.1)) (result.1 + bufferSize)

/-- `page_alloc` returns the null pointer or pages that `page_free` takes back, whatever is written to them. -/
def Clients.PageRoundTrip (regions : List MmRegion) (s : Clients) (flags : BitVec 32) (order : Nat) : Prop :=
  ((pageAlloc s.heap flags order).1 = 0 ↔ ¬s.heap.Meets (order + PAGE_ORDER) flags) ∧
    ((pageAlloc s.heap flags order).1 ≠ 0 →
      s.Paged regions order (pageAlloc s.heap flags order) ∧ s.TakenBack order (pageAlloc s.heap flags order))

section Agree
variable {kept : Set Nat} {held : Finset Nat} {s t : Heap} {order : Nat} {flags : BitVec 32}

theorem Heap.Agree.firstFit (agree : s.Agree kept t) : s.firstFit order flags = t.firstFit order flags := by
  have lowest (flags : BitVec 32) (levels : Nat) : s.lowestSuitable flags levels = t.lowestSuitable flags levels := by
    induction levels with
    | zero => rfl
    | succ levels ih =>
      unfold Heap.lowestSuitable
      rw [agree.findBufferInBucket, ih]
  unfold Heap.firstFit
  simp only [lowest, agree.canSupply]

theorem kfree_used {block : Nat} (apart : ∀ bucket, block ∉ s.mmBucket bucket) :
    (kfree s (block + bufferSize)).used = s.used - orderToSize (s.buffer block).bucket := by
  have frame := defragment_frame ∅
    (s := ({ s with used := s.used - orderToSize (s.buffer block).bucket } : Heap).listAdd (s.buffer block).bucket block)
    (maxAddressableMemOrder + 1) ((mem_listAdd _).mpr (.inr ⟨rfl, rfl⟩)) fun _ _ _ inside => inside
  rw [kfree_eq apart]
  exact frame.used

/-- `page_alloc` never returns NULL. -/
theorem pageAlloc_ne_zero (invariant : (System.mk s held).HeapInvariant regions) (flags : BitVec 32) (order : Nat) :
    (pageAlloc s flags order).1 ≠ 0 := by
  have outcome := kmalloc_outcome invariant ((1#32 <<< order) <<< PAGE_ORDER - BitVec.ofNat 32 bufferSize) flags
  rw [pageAlloc_eq]
  dsimp only
  generalize kmalloc s ((1#32 <<< order) <<< PAGE_ORDER - BitVec.ofNat 32 bufferSize) flags = result at outcome ⊢
  have nothing (null : result.1 = 0) : (result.1 + nullPage) % 2 ^ 32 ≠ 0 := by
    rw [null]
    unfold nullPage bufferSize
    omega
  split at outcome
  · exact nothing (congrArg Prod.fst outcome)
  · split at outcome
    · obtain ⟨block, next, returned, allocated⟩ := outcome
      obtain ⟨nonNull, -, last⟩ := allocated.bounds
      have positive := Nat.two_pow_pos (requestOrder ((1#32 <<< order) <<< PAGE_ORDER - BitVec.ofNat 32 bufferSize))
      rw [returned]
      unfold bufferSize nullPage bufferSize
      omega
    · exact nothing (congrArg Prod.fst outcome)

end Agree

section Sound
variable {s : Clients} {intact : Heap} {flags : BitVec 32} {page order : Nat}

theorem mem_afterPageAlloc (order : Nat) (result : Nat × Heap) (real : result.1 ≠ nullPage) :
    (result.1, order) ∈ (s.afterPageAlloc order result).pages := by
  unfold Clients.afterPageAlloc
  rw [if_neg real]
  exact Finset.mem_insert_self _ _

theorem Clients.Sound.page_header (sound : s.Sound regions intact) (there : (page, order) ∈ s.pages) :
    ∃ position region, intact.buffer page = ⟨order + PAGE_ORDER, position⟩ ∧ regions[position]? = some region ∧
      region.start ≤ page ∧ page + 2 ^ (order + PAGE_ORDER) ≤ region.start + region.size ∧
      s.heap.pageRegion page (pageBytes order) =
        if region.start + region.size = 2 ^ 32 then none else some position := by
  have consistent := sound.invariant.consistent
  have before : page + bufferSize ∈ s.pointers := Clients.mem_pointers.mpr (.inr ⟨_, there, rfl⟩)
  have tile := consistent.layout_held before
  have bucket : (intact.buffer page).bucket = order + PAGE_ORDER := sound.pages _ there
  have short := (sound.page there).1
  obtain ⟨region, placed, low, high⟩ := consistent.tile_region tile
  dsimp only at placed high
  rw [bucket] at high
  refine ⟨_, region, ?_, placed, low, high, ?_⟩
  · rw [← bucket]
  · rw [pageBytes_eq short]
    exact pageRegion_eq consistent.valid (sound.agree.regions.trans consistent.added) placed _ low high
      (Nat.two_pow_pos _)

theorem Clients.Sound.pageAlloc_firstFit (sound : s.Sound regions intact)
    (meets : s.heap.Meets (order + PAGE_ORDER) flags) :
    order + PAGE_ORDER ≤ maxAddressableMemOrder ∧
      (Mm.pageAlloc s.heap flags order).1 = s.heap.firstFit (order + PAGE_ORDER) flags ∧
      (Mm.pageAlloc s.heap flags order).1 ≠ nullPage ∧
      (Mm.pageAlloc s.heap flags order).2.buffer (Mm.pageAlloc s.heap flags order).1 =
        (Mm.pageAlloc intact flags order).2.buffer (Mm.pageAlloc s.heap flags order).1 := by
  have short : order + PAGE_ORDER ≤ maxAddressableMemOrder := by
    obtain ⟨bucket, bound, above, -⟩ | ⟨-, bucket, bound, above, -⟩ := meets
    · exact Nat.le_trans above bound
    · exact Nat.le_trans above bound
  have meets := sound.agree.meets.mp meets
  obtain ⟨some, wanted⟩ := page_request short
  obtain ⟨same, later⟩ := sound.agree.kmalloc sound.invariant
    ((1#32 <<< order) <<< PAGE_ORDER - BitVec.ofNat 32 bufferSize) flags
  have first := kmalloc_firstFit flags sound.invariant some (wanted ▸ short) (wanted ▸ meets)
  have outcome := kmalloc_outcome sound.invariant
    ((1#32 <<< order) <<< PAGE_ORDER - BitVec.ofNat 32 bufferSize) flags
  have pages := pageAlloc_outcome sound.invariant short flags
  rw [if_neg some, wanted, if_pos ⟨short, meets⟩] at outcome
  rw [if_pos meets] at pages
  rw [wanted] at first
  obtain ⟨block, next, returned, allocated⟩ := outcome
  obtain ⟨page, after, given, -, real, -⟩ := pages
  have fit : intact.firstFit (order + PAGE_ORDER) flags = block := by
    rw [returned] at first
    exact (Nat.add_right_cancel first).symm
  have pointer : (Mm.pageAlloc s.heap flags order).1 = block := by
    obtain ⟨-, -, last⟩ := allocated.bounds
    have positive := Nat.two_pow_pos (order + PAGE_ORDER)
    rw [pageAlloc_eq]
    dsimp only
    rw [same, returned]
    unfold bufferSize nullPage bufferSize
    omega
  have equal := (sound.agree.pageAlloc sound.invariant flags order).1
  refine ⟨short, pointer.trans (fit.symm.trans sound.agree.firstFit.symm), ?_, ?_⟩
  · rw [equal, given]
    exact real
  · rw [pointer, pageAlloc_eq, pageAlloc_eq]
    dsimp only
    have nonNull : block + bufferSize ≠ 0 := by
      unfold bufferSize
      omega
    rw [returned] at later ⊢
    dsimp only at later
    rw [if_neg nonNull, Nat.add_sub_cancel] at later
    exact later.header block (Set.mem_insert _ _)

theorem Clients.Sound.paged {result : Nat × Heap} (after : (s.afterPageAlloc order result).Sound regions intact)
    (there : (result.1, order) ∈ (s.afterPageAlloc order result).pages) : s.Paged regions order result := by
  have bytes : 2 ^ order * PAGE_SIZE = 2 ^ (order + PAGE_ORDER) := (Nat.pow_add 2 order PAGE_ORDER).symm
  have known : (s.afterPageAlloc order result).Block result.1 (order + PAGE_ORDER) :=
    .inr (.inr ⟨_, there, rfl, rfl⟩)
  obtain ⟨position, region, -, placed, low, high, -⟩ := after.page_header there
  unfold Clients.Paged
  rw [bytes]
  refine ⟨⟨region, List.mem_of_getElem? placed, low, high⟩, fun other size also different x lower upper => ?_⟩
  exact after.blocks_apart known also different (mem_extent.mpr ⟨lower, upper⟩)

/-- When a page that is allocated and freed at once is taken back. -/
theorem Clients.Sound.takenBack {result : Nat × Heap} (after : (s.afterPageAlloc order result).Sound regions intact)
    (there : (result.1, order) ∈ (s.afterPageAlloc order result).pages)
    (header : result.2.buffer result.1 = intact.buffer result.1) :
    s.TakenBack order result ↔ ∀ region ∈ regions, region.start ≤ result.1 →
      result.1 < region.start + region.size → region.start + region.size ≠ 2 ^ 32 := by
  have short := (after.page there).1
  have positive := Nat.two_pow_pos (order + PAGE_ORDER)
  obtain ⟨position, region, written, placed, low, high, found⟩ := after.page_header there
  rw [written] at header
  constructor
  · intro back other inside lowOther highOther ends
    obtain ⟨index, bound, rfl⟩ := List.mem_iff_getElem.mp inside
    have placedOther := List.getElem?_eq_getElem bound
    obtain rfl := after.invariant.consistent.valid.position_unique placed placedOther (x := result.1)
      ⟨low, by omega⟩ ⟨lowOther, highOther⟩
    obtain rfl := Option.some.inj (placedOther.symm.trans placed)
    rw [if_pos ends] at found
    have same := back [] _ rfl (fun _ none => absurd none List.not_mem_nil) there
    have refused : Mm.pageFree (s.afterPageAlloc order result).heap result.1 order =
        (s.afterPageAlloc order result).heap := by
      unfold Mm.pageFree
      rw [found]
    have apart (bucket : Nat) : result.1 ∉ (s.afterPageAlloc order result).heap.mmBucket bucket := by
      rw [after.agree.buckets]
      exact fun listed => after.invariant.consistent.apart bucket _ listed
        (Clients.mem_pointers.mpr (.inr ⟨_, there, rfl⟩))
    have used := congrArg Heap.used (refused.symm.trans same)
    rw [kfree_used (s := (s.afterPageAlloc order result).heap.setBuffer result.1 (result.2.buffer result.1)) apart] at used
    have bucket : (((s.afterPageAlloc order result).heap.setBuffer result.1
        (result.2.buffer result.1)).buffer result.1).bucket = order + PAGE_ORDER := by
      rw [header]
      exact congrArg MmBuffer.bucket (Function.update_self (β := fun _ => MmBuffer) ..)
    have power := orderToSize_toNat _ short
    rw [bucket] at used
    change (s.afterPageAlloc order result).heap.used =
      (s.afterPageAlloc order result).heap.used - orderToSize (order + PAGE_ORDER) at used
    have bytes := congrArg BitVec.toNat used
    have below := (orderToSize (order + PAGE_ORDER)).isLt
    have bound := (s.afterPageAlloc order result).heap.used.isLt
    rw [BitVec.toNat_sub, power] at bytes
    omega
  · intro ends requests later ran short still
    obtain ⟨last, kept⟩ := after.run ran short
    obtain ⟨index, other, -, placedOther, lowOther, highOther, foundOther⟩ := kept.page_header still
    obtain rfl := kept.invariant.consistent.valid.position_unique placed placedOther (x := result.1)
      ⟨low, by omega⟩ ⟨lowOther, by omega⟩
    obtain rfl : region = other := Option.some.inj (placed.symm.trans placedOther)
    rw [if_neg (ends region (List.mem_of_getElem? placed) low (by omega))] at foundOther
    have bytes := pageBytes_eq (kept.page still).1
    unfold Mm.pageFree
    rw [foundOther]
    dsimp only
    rw [header, bytes, (order_of_power _ (kept.page still).1).2, Int.toNat_natCast]

end Sound

/-- In every heap that requests without wrapping reach, `page_alloc` and `page_free` make the round trip exactly when
a free block meets the request, and the region of the first fit does not end the address space. -/
theorem page_round_trip (regions : List MmRegion) (valid : ValidRegions regions)
    (nonNull : ∀ region ∈ regions, region.start ≠ 0) (requests : List Request)
    (short : ∀ request ∈ requests, request.Short) (s : Clients)
    (ran : run Clients.step (.boot regions) requests = some s) (flags : BitVec 32) (order : Nat) :
    s.PageRoundTrip regions flags order ↔
      s.heap.Meets (order + PAGE_ORDER) flags ∧
        ∀ region ∈ regions, region.start ≤ s.heap.firstFit (order + PAGE_ORDER) flags →
          s.heap.firstFit (order + PAGE_ORDER) flags < region.start + region.size →
          region.start + region.size ≠ 2 ^ 32 := by
  obtain ⟨intact, sound⟩ := sound_of_run valid nonNull ran short
  have met (meets : s.heap.Meets (order + PAGE_ORDER) flags) :
      s.Paged regions order (pageAlloc s.heap flags order) ∧
        (s.TakenBack order (pageAlloc s.heap flags order) ↔
          ∀ region ∈ regions, region.start ≤ s.heap.firstFit (order + PAGE_ORDER) flags →
            s.heap.firstFit (order + PAGE_ORDER) flags < region.start + region.size →
            region.start + region.size ≠ 2 ^ 32) := by
    obtain ⟨fits, fit, real, header⟩ := sound.pageAlloc_firstFit meets
    have after := sound.pageAlloc flags fits
    rw [← fit]
    generalize pageAlloc s.heap flags order = result at header after real ⊢
    have there := mem_afterPageAlloc (s := s) order result real
    exact ⟨after.paged there, after.takenBack there header⟩
  have real : (pageAlloc s.heap flags order).1 ≠ 0 := by
    rw [(sound.agree.pageAlloc sound.invariant flags order).1]
    exact pageAlloc_ne_zero sound.invariant flags order
  constructor
  · rintro ⟨null, pages⟩
    have meets : s.heap.Meets (order + PAGE_ORDER) flags := by
      by_contra none
      exact real (null.mpr none)
    exact ⟨meets, (met meets).2.mp (pages real).2⟩
  · rintro ⟨meets, ends⟩
    exact ⟨iff_of_false real (not_not.mpr meets), fun _ => ⟨(met meets).1, (met meets).2.mpr ends⟩⟩

/-- A page of the first region makes the round trip after a block of 16 bytes. -/
theorem page_round_trip_twins :
    ∃ s, run Clients.step (.boot twins) [.kmalloc 16 MM_KERNEL] = some s ∧
      (s.PageRoundTrip twins 0 0 ↔ s.heap.Meets (0 + PAGE_ORDER) 0 ∧
        ∀ region ∈ twins, region.start ≤ s.heap.firstFit (0 + PAGE_ORDER) 0 →
          s.heap.firstFit (0 + PAGE_ORDER) 0 < region.start + region.size → region.start + region.size ≠ 2 ^ 32) :=
  ⟨_, rfl, page_round_trip twins twins_valid (by decide) [.kmalloc 16 MM_KERNEL] (by decide) _ rfl 0 0⟩

/-- Without a free block the pages are at address 4294967280, and not at the null pointer; and the last page of
the address space is not taken back. -/
theorem pageAlloc_fails_with_address :
    (¬(Clients.boot twins).heap.Meets (1 + PAGE_ORDER) 0 ∧
        (pageAlloc (Clients.boot twins).heap 0 1).1 = 4294967280 ∧ ¬(Clients.boot twins).PageRoundTrip twins 0 1) ∧
      (pageAlloc (Clients.boot [⟨4294967040, 256, MM_KERNEL⟩]).heap 0 0).1 = 4294967040 ∧
        ¬(Clients.boot [⟨4294967040, 256, MM_KERNEL⟩]).PageRoundTrip [⟨4294967040, 256, MM_KERNEL⟩] 0 0 := by
  have fails : ¬(Clients.boot twins).heap.Meets (1 + PAGE_ORDER) 0 := by decide +kernel
  have address : (pageAlloc (Clients.boot twins).heap 0 1).1 = 4294967280 := by decide +kernel
  have last : (pageAlloc (Clients.boot [⟨4294967040, 256, MM_KERNEL⟩]).heap 0 0).1 = 4294967040 := by decide +kernel
  refine ⟨⟨fails, address, fun trip => ?_⟩, last, fun trip => ?_⟩
  · have null := trip.1.mpr fails
    rw [address] at null
    cases null
  · have real : (pageAlloc (Clients.boot [⟨4294967040, 256, MM_KERNEL⟩]).heap 0 0).1 ≠ 0 := by
      rw [last]
      decide
    have same := congrArg Heap.used ((trip.2 real).2 [] _ rfl (fun _ none => absurd none List.not_mem_nil)
      (by decide +kernel))
    revert same
    decide +kernel

end Phabos.Mm
