import Phabos.Library.Run
import Phabos.Proof.Mm.BlockLayout

namespace Phabos.Mm
open Library List
variable {regions : List MmRegion}

/-- The blocks tile the regions, and no two free buddies of one region and order coexist. -/
structure System.HeapInvariant (regions : List MmRegion) (s : System) : Prop where
  consistent : s.Consistent regions
  buddyFree : BuddyFree s.layout

section Find
variable {s : Heap} {order : Nat} {flags : BitVec 32}

theorem findBufferInBucket_mem (found : s.findBufferInBucket order flags ≠ 0) :
    s.findBufferInBucket order flags ∈ s.mmBucket order ∧
      s.suits flags (s.findBufferInBucket order flags) = true := by
  unfold Heap.findBufferInBucket at found ⊢
  split at found
  · contradiction
  · rename_i small
    rw [if_neg small]
    cases first : (s.mmBucket order).find? (s.suits flags) with
    | none =>
      rw [first] at found
      contradiction
    | some buffer => exact ⟨List.mem_of_find?_eq_some first, List.find?_some first⟩

theorem findBufferInBucket_none (small : order ≤ maxAddressableMemOrder)
    (nonNull : 0 ∉ s.mmBucket order) (missing : s.findBufferInBucket order flags = 0) (buffer : Nat)
    (listed : buffer ∈ s.mmBucket order) : s.suits flags buffer = false := by
  unfold Heap.findBufferInBucket at missing
  rw [if_neg (by omega)] at missing
  cases first : (s.mmBucket order).find? (s.suits flags) with
  | none => simpa using List.find?_eq_none.mp first buffer listed
  | some found =>
    rw [first, Option.getD_some] at missing
    exact absurd (missing ▸ List.mem_of_find?_eq_some first) nonNull

theorem suits_splitBuffer (s : Heap) (order block : Nat) {buffer : Nat} (apart : buffer ≠ block + 2 ^ order) :
    (s.splitBuffer order block).suits flags buffer = s.suits flags buffer := by
  unfold Heap.suits Heap.flagsOf
  rw [buffer_splitBuffer]
  by_cases here : buffer = block
  · rw [if_pos (.inl here), here]
    rfl
  · rw [if_neg (not_or.mpr ⟨here, apart⟩)]
    rfl

theorem findBufferInBucket_split {block : Nat} (small : order ≤ maxAddressableMemOrder)
    (unsuitable : ∀ buffer ∈ s.mmBucket order, s.suits flags buffer = false)
    (unlisted : block + 2 ^ order ∉ s.mmBucket order) (suitable : s.suits flags block = true) :
    (s.splitBuffer order block).findBufferInBucket order flags = block := by
  have positive := Nat.two_pow_pos order
  have none : ((s.mmBucket order).erase block).find? ((s.splitBuffer order block).suits flags) = none := by
    rw [List.find?_eq_none]
    intro buffer inside
    have old := mem_of_mem_erase inside
    rw [suits_splitBuffer s order block (by rintro rfl; exact unlisted old), unsuitable buffer old]
    decide
  unfold Heap.findBufferInBucket
  rw [if_neg (by omega), mmBucket_splitBuffer, if_pos rfl, List.find?_append, List.find?_append, none,
    List.find?_singleton, suits_splitBuffer s order block (by omega), suitable]
  rfl

theorem findBufferInBucket_split_of_ne {block bucket : Nat} (apart : bucket ≠ order)
    (unlistedLow : block ∉ s.mmBucket bucket) (unlistedHigh : block + 2 ^ order ∉ s.mmBucket bucket) :
    (s.splitBuffer order block).findBufferInBucket bucket flags =
      s.findBufferInBucket bucket flags := by
  have same : (s.mmBucket bucket).find? ((s.splitBuffer order block).suits flags) =
      (s.mmBucket bucket).find? (s.suits flags) := by
    rw [← List.head?_filter, ← List.head?_filter]
    apply congrArg head?
    apply filter_congr
    intro buffer listed
    exact suits_splitBuffer s order block (by rintro rfl; exact unlistedHigh listed)
  unfold Heap.findBufferInBucket
  rw [mmBucket_splitBuffer, if_neg apart, erase_of_not_mem unlistedLow, same]

end Find

/-- The search for a buffer fails and changes nothing, or its first suitable buffer may have a buddy,
no other block has one, and the lower buckets are as before. -/
def Supplied (regions : List MmRegion) (held : Finset Nat) (order : Nat) (flags : BitVec 32)
    (s next : Heap) (retval : Int) : Prop :=
  retval ≠ 0 ∧ next = s ∨
    retval = 0 ∧ next.findBufferInBucket order flags ≠ 0 ∧
      (System.mk next held).Consistent regions ∧
      BuddyFreeExcept (System.layout ⟨next, held⟩) (next.findBufferInBucket order flags) ∧
      ∀ lower < order, next.findBufferInBucket lower flags = s.findBufferInBucket lower flags

variable {held : Finset Nat}

variable {s : Heap}

theorem supplied_split {order : Nat} {flags : BitVec 32} (small : order ≤ maxAddressableMemOrder)
    (consistent : (System.mk s held).Consistent regions) (missing : s.findBufferInBucket order flags = 0)
    (found : s.findBufferInBucket (order + 1) flags ≠ 0)
    (except : BuddyFreeExcept (System.layout ⟨s, held⟩) (s.findBufferInBucket (order + 1) flags)) :
    Supplied regions held order flags s
      (s.splitBuffer order (s.findBufferInBucket (order + 1) flags)) 0 := by
  obtain ⟨listed, suitable⟩ := findBufferInBucket_mem found
  have tile := consistent.layout_free listed
  have nonNull : 0 ∉ s.mmBucket order :=
    fun inside => (consistent.tile_bounds (consistent.layout_free inside)).2 rfl
  have upper := consistent.absent (consistent.tiling.upper_none tile (show order < order + 1 by omega))
  have first := findBufferInBucket_split small (findBufferInBucket_none small nonNull missing)
    (upper.1 order) suitable
  refine .inr ⟨rfl, by rwa [first], consistent.splitBuffer listed, ?_, fun lower below => ?_⟩
  · rw [first, consistent.layout_split listed]
    exact BuddyFreeExcept.split consistent.tiling except tile rfl
  · apply findBufferInBucket_split_of_ne (by omega) ?_ (upper.1 lower)
    intro inside
    have recorded := consistent.recorded lower _ inside
    have same := consistent.recorded (order + 1) _ listed
    omega

theorem fillBucket_supplies (flags : BitVec 32) (invariant : (System.mk s held).HeapInvariant regions) (levels : Nat)
    (small : levels ≤ maxAddressableMemOrder + 1)
    (missing : s.findBufferInBucket (maxAddressableMemOrder + 1 - levels) flags = 0) :
    ∃ retval next, fillBucket flags levels s = (retval, next) ∧
      Supplied regions held (maxAddressableMemOrder + 1 - levels) flags s next retval := by
  induction levels with
  | zero => exact ⟨_, _, rfl, .inl ⟨by decide, rfl⟩⟩
  | succ levels ih =>
    have order : maxAddressableMemOrder + 1 - (levels + 1) = maxAddressableMemOrder - levels := by omega
    have above : maxAddressableMemOrder + 1 - levels = maxAddressableMemOrder - levels + 1 := by omega
    rw [order] at missing ⊢
    rw [above] at ih
    unfold fillBucket
    by_cases found : s.findBufferInBucket (maxAddressableMemOrder - levels + 1) flags = 0
    · obtain ⟨retval, next, filled, ⟨failed, rfl⟩ | ⟨rfl, nonNull, consistent, except, lower⟩⟩ :=
        ih (by omega) found
      · exact ⟨retval, next, by simp [found, filled, failed], .inl ⟨failed, rfl⟩⟩
      · have still := lower (maxAddressableMemOrder - levels) (by omega)
        refine ⟨0, _, by simp [found, filled, nonNull]; rfl, ?_⟩
        rcases supplied_split (by omega) consistent (still.trans missing) nonNull except with
          ⟨failed, _⟩ | ⟨_, first, kept, split, untouched⟩
        · contradiction
        · exact .inr ⟨rfl, first, kept, split, fun bucket below =>
            (untouched bucket below).trans (lower bucket (by omega))⟩
    · refine ⟨0, s.splitBuffer _ _, by simp [found]; rfl, ?_⟩
      exact supplied_split (by omega) invariant.consistent missing found
        (invariant.buddyFree.except _)

/-- A search returns the null pointer and keeps the heap, or a listed block whose removal leaves no
buddies. -/
def Returned (regions : List MmRegion) (held : Finset Nat) (order buffer : Nat) (next : Heap) : Prop :=
  buffer = 0 ∧ (System.mk next held).HeapInvariant regions ∨
    buffer ≠ 0 ∧ buffer ∈ next.mmBucket order ∧ (System.mk next held).Consistent regions ∧
      BuddyFreeExcept (System.layout ⟨next, held⟩) buffer

theorem getBuffer_returns {order : Nat} (depth : Nat) (flags : BitVec 32) (small : order ≤ maxAddressableMemOrder)
    (invariant : (System.mk s held).HeapInvariant regions) :
    ∃ buffer next, getBuffer depth s order flags = (buffer, next) ∧
      Returned regions held order buffer next := by
  have levels : maxAddressableMemOrder + 1 - (maxAddressableMemOrder + 1 - order) = order := by omega
  have searched (flags : BitVec 32) := fillBucket_supplies flags invariant
    (maxAddressableMemOrder + 1 - order) (by omega)
  rw [levels] at searched
  have found (flags : BitVec 32) (found : s.findBufferInBucket order flags ≠ 0) :
      Returned regions held order (s.findBufferInBucket order flags) s :=
    .inr ⟨found, (findBufferInBucket_mem found).1, invariant.consistent, invariant.buddyFree.except _⟩
  induction depth generalizing flags with
  | zero =>
    unfold getBuffer
    by_cases missing : s.findBufferInBucket order flags = 0
    · obtain ⟨retval, next, filled, ⟨failed, rfl⟩ | ⟨rfl, nonNull, consistent, except, _⟩⟩ :=
        searched flags missing
      · exact ⟨0, next, by simp [missing, filled, failed], .inl ⟨rfl, invariant⟩⟩
      · exact ⟨next.findBufferInBucket order flags, next, by simp [missing, filled],
          .inr ⟨nonNull, (findBufferInBucket_mem nonNull).1, consistent, except⟩⟩
    · exact ⟨_, s, by simp only [missing, ne_eq, not_false_eq_true, if_true], found flags missing⟩
  | succ depth ih =>
    unfold getBuffer
    by_cases missing : s.findBufferInBucket order flags = 0
    · obtain ⟨retval, next, filled, ⟨failed, rfl⟩ | ⟨rfl, nonNull, consistent, except, _⟩⟩ :=
        searched flags missing
      · by_cases dma : flags &&& MM_DMA = 0#32
        · obtain ⟨buffer, last, returned, outcome⟩ := ih MM_DMA
          exact ⟨buffer, last, by simp [missing, filled, failed, dma, returned], outcome⟩
        · exact ⟨0, next, by simp [missing, filled, failed, dma], .inl ⟨rfl, invariant⟩⟩
      · exact ⟨next.findBufferInBucket order flags, next, by simp [missing, filled],
          .inr ⟨nonNull, (findBufferInBucket_mem nonNull).1, consistent, except⟩⟩
    · exact ⟨_, s, by simp only [missing, ne_eq, not_false_eq_true, if_true], found flags missing⟩

theorem kmalloc_keeps (size flags : BitVec 32) (invariant : (System.mk s held).HeapInvariant regions) :
    ∃ ptr next, kmalloc s size flags = (ptr, next) ∧
      (System.mk next (if ptr = 0 then held else insert ptr held)).HeapInvariant regions := by
  unfold kmalloc
  by_cases empty : size = 0
  · exact ⟨0, s, by rw [if_pos empty], invariant⟩
  by_cases negative : sizeToOrder (size + BitVec.ofNat 32 bufferSize).toNat < 0
  · exact ⟨0, s, by simp only [if_neg empty, if_pos negative], invariant⟩
  have counted (used : BitVec 32) :
      (System.mk { s with used := used } held).HeapInvariant regions :=
    ⟨invariant.consistent.setUsed used, invariant.buddyFree⟩
  by_cases large : maxAddressableMemOrder < (sizeToOrder (size + BitVec.ofNat 32 bufferSize).toNat).toNat
  · exact ⟨0, _, by simp only [empty, negative, large, if_true, if_false]; rfl, counted _⟩
  obtain ⟨buffer, next, returned, ⟨rfl, kept⟩ | ⟨nonNull, listed, consistent, except⟩⟩ :=
    getBuffer_returns 1 flags (Nat.le_of_not_lt large) (counted (s.used + orderToSize
      (sizeToOrder (size + BitVec.ofNat 32 bufferSize).toNat).toNat))
  · exact ⟨0, next, by simp only [empty, negative, large, returned, if_true, if_false], kept⟩
  · refine ⟨buffer + bufferSize, next.listDel buffer,
      by simp only [empty, negative, large, returned, nonNull, if_false], ?_⟩
    have different : buffer + bufferSize ≠ 0 := by
      unfold bufferSize
      omega
    obtain ⟨taken, marked⟩ := consistent.take listed
    rw [if_neg different]
    refine ⟨taken, ?_⟩
    rw [marked]
    exact except.taken

theorem unbuddied {s : System} {order block low : Nat} (consistent : s.Consistent regions)
    (except : BuddyFreeExcept s.layout block) (listed : block ∈ s.heap.mmBucket order)
    (aligned : 2 ^ (order + 1) ∣ low) (half : block = low ∨ block = low + 2 ^ order)
    (unpaired : low ∈ s.heap.mmBucket order → low + 2 ^ order ∈ s.heap.mmBucket order →
      (s.heap.buffer low).region ≠ (s.heap.buffer (low + 2 ^ order)).region) :
    s.HeapInvariant regions := by
  refine ⟨consistent, fun first size owner buddies => ?_⟩
  have tile := consistent.layout_free listed
  have own := except first size owner buddies
  have sameOrder : order = size := by
    have found : s.layout block = some ⟨size, owner, true⟩ := by
      rcases own with rfl | rfl
      · exact buddies.low
      · exact buddies.high
    have equal := tile.symm.trans found
    rw [Option.some.injEq, Tile.mk.injEq] at equal
    exact equal.1
  subst size
  have sameLow : first = low := by
    apply start_eq_of_mem buddies.aligned aligned (x := block)
    · rw [mem_extent_succ]
      rcases own with rfl | rfl
      · exact .inl (start_mem_extent _ _)
      · exact .inr (start_mem_extent _ _)
    · rw [mem_extent_succ]
      rcases half with rfl | rfl
      · exact .inl (start_mem_extent _ _)
      · exact .inr (start_mem_extent _ _)
  subst first
  obtain ⟨lowListed, lowRegion⟩ := System.listed_of_layout buddies.low
  obtain ⟨highListed, highRegion⟩ := System.listed_of_layout buddies.high
  exact unpaired lowListed highListed (lowRegion.trans highRegion.symm)

theorem defragment_keeps (levels : Nat) {order block : Nat} (consistent : (System.mk s held).Consistent regions)
    (except : BuddyFreeExcept (System.layout ⟨s, held⟩) block) (listed : block ∈ s.mmBucket order)
    (deep : maxAddressableMemOrder + 1 ≤ order + levels) :
    (System.mk (defragment levels s block) held).HeapInvariant regions := by
  induction levels generalizing s order block with
  | zero =>
    have bounds := (consistent.tile_bounds (consistent.layout_free listed)).1
    dsimp only at bounds
    omega
  | succ levels ih =>
    have recorded : (s.buffer block).bucket = order := consistent.recorded order block listed
    have aligned : 2 ^ order ∣ block :=
      consistent.tiling.aligned block _ (consistent.layout_free listed)
    have nonempty : (s.mmBucket order).isEmpty = false := by
      rw [isEmpty_eq_false_iff]
      exact ne_nil_of_mem listed
    have merged (low : Nat) (alignedLow : 2 ^ (order + 1) ∣ low)
        (half : block = low ∨ block = low + 2 ^ order) (lowListed : low ∈ s.mmBucket order)
        (highListed : low + 2 ^ order ∈ s.mmBucket order)
        (region : (s.buffer low).region = (s.buffer (low + 2 ^ order)).region) :
        (System.mk (defragment levels (s.mergeBuffers low (low + 2 ^ order)) low) held).HeapInvariant
          regions := by
      obtain ⟨kept, layout⟩ := consistent.mergeBuffers lowListed highListed region alignedLow
      have sameOrder : (s.buffer low).bucket = order := consistent.recorded order low lowListed
      apply ih kept
      · rw [layout]
        exact except.merge _ half
      · show low ∈ (s.mergeBuffers low (low + 2 ^ order)).mmBucket (order + 1)
        rw [mmBucket_mergeBuffers, sameOrder, if_pos rfl]
        simp
      · omega
    unfold defragment
    simp only [recorded, nonempty, Bool.false_eq_true, if_false]
    cases upper : block.testBit order with
    | false =>
      have alignedLow : 2 ^ (order + 1) ∣ block := by
        by_contra different
        rw [(testBit_iff_not_aligned aligned).mpr different] at upper
        contradiction
      simp only [Bool.false_eq_true, if_false]
      split
      · rename_i highListed
        split
        · rename_i different
          exact unbuddied consistent except listed alignedLow (.inl rfl) fun _ _ => different
        · rename_i same
          exact merged block alignedLow (.inl rfl) listed highListed (not_not.mp same)
      · rename_i missing
        exact unbuddied consistent except listed alignedLow (.inl rfl)
          fun _ highListed => absurd highListed missing
    | true =>
      obtain ⟨bound, alignedLow⟩ := lower_buddy aligned upper
      have high : block - 2 ^ order + 2 ^ order = block := Nat.sub_add_cancel bound
      simp only [if_true]
      split
      · rename_i lowListed
        split
        · rename_i different
          refine unbuddied consistent except listed alignedLow (.inr high.symm) fun _ _ => ?_
          rw [high]
          exact different
        · rename_i same
          have result := merged (block - 2 ^ order) alignedLow (.inr high.symm) lowListed
          rw [high] at result
          exact result listed (not_not.mp same)
      · rename_i missing
        exact unbuddied consistent except listed alignedLow (.inr high.symm)
          fun lowListed _ => absurd lowListed missing

theorem kfree_keeps {ptr : Nat} (inside : ptr ∈ held) (invariant : (System.mk s held).HeapInvariant regions) :
    (System.mk (kfree s ptr) (held.erase ptr)).HeapInvariant regions := by
  have large := invariant.consistent.pointers ptr inside
  obtain ⟨block, rfl⟩ : ∃ block, ptr = block + bufferSize := ⟨ptr - bufferSize, by omega⟩
  have nonNull : block + bufferSize ≠ 0 := by
    unfold bufferSize
    omega
  have alone : s.prevIsNext block := fun bucket _ listed =>
    absurd inside (invariant.consistent.apart bucket block listed)
  unfold kfree
  simp only [if_neg nonNull, Nat.add_sub_cancel, alone, not_true_eq_false, if_false]
  obtain ⟨consistent, layout⟩ := (invariant.consistent.setUsed
    (s.used - orderToSize (s.buffer block).bucket)).release inside
  apply defragment_keeps _ consistent
  · rw [layout]
    exact invariant.buddyFree.released block
  · exact (mem_listAdd _).mpr (.inr ⟨rfl, rfl⟩)
  · omega

end Phabos.Mm
