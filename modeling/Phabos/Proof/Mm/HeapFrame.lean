import Mathlib.Data.List.Find
import Phabos.Proof.Mm.BuddyInvariant

namespace Phabos.Mm
open Library List
variable {regions : List MmRegion}

/-- The regions, the counters and the headers of some blocks are as before. -/
structure Heap.Frame (kept : Set Nat) (s next : Heap) : Prop where
  regions : next.mmRegionList = s.mmRegionList
  initialized : next.isInitialized = s.isInitialized
  total : next.total = s.total
  used : next.used = s.used
  header : ∀ block ∈ kept, next.buffer block = s.buffer block

/-- Two heaps have the same lists, and the same headers of listed and of some other blocks. -/
structure Heap.Agree (kept : Set Nat) (s t : Heap) : Prop where
  buckets : s.mmBucket = t.mmBucket
  regions : s.mmRegionList = t.mmRegionList
  initialized : s.isInitialized = t.isInitialized
  total : s.total = t.total
  used : s.used = t.used
  listed : ∀ bucket block, block ∈ s.mmBucket bucket → s.buffer block = t.buffer block
  header : ∀ block ∈ kept, s.buffer block = t.buffer block

section Frame
variable {kept : Set Nat} {s middle next : Heap}

theorem Heap.Frame.refl (kept : Set Nat) (s : Heap) : s.Frame kept s := ⟨rfl, rfl, rfl, rfl, fun _ _ => rfl⟩

theorem Heap.Frame.trans (first : s.Frame kept middle) (second : middle.Frame kept next) : s.Frame kept next where
  regions := second.regions.trans first.regions
  initialized := second.initialized.trans first.initialized
  total := second.total.trans first.total
  used := second.used.trans first.used
  header block inside := (second.header block inside).trans (first.header block inside)

theorem Heap.Frame.splitBuffer {order buffer1 : Nat} (low : buffer1 ∉ kept) (high : buffer1 + 2 ^ order ∉ kept) :
    s.Frame kept (s.splitBuffer order buffer1) := by
  refine ⟨rfl, rfl, rfl, rfl, fun block inside => ?_⟩
  rw [buffer_splitBuffer, if_neg]
  rintro (rfl | rfl)
  · exact low inside
  · exact high inside

theorem fillBucket_closure {held : Finset Nat} {flags : BitVec 32} (property : Heap → Prop)
    (invariant : (System.mk s held).HeapInvariant regions) (start : property s)
    (levels : Nat) (small : levels ≤ maxAddressableMemOrder + 1)
    (split : ∀ next order, property next → (System.mk next held).Consistent regions →
      maxAddressableMemOrder + 1 ≤ order + levels → order ≤ maxAddressableMemOrder →
      next.findBufferInBucket (order + 1) flags ≠ 0 →
      property (next.splitBuffer order (next.findBufferInBucket (order + 1) flags))) :
    property (fillBucket flags levels s).2 := by
  induction levels with
  | zero => exact start
  | succ levels ih =>
    have above : maxAddressableMemOrder + 1 - levels = maxAddressableMemOrder - levels + 1 := by omega
    unfold fillBucket
    by_cases found : s.findBufferInBucket (maxAddressableMemOrder - levels + 1) flags = 0
    · obtain ⟨retval, next, filled, outcome⟩ :=
        fillBucket_supplies flags invariant levels (by omega) (above ▸ found)
      have before := ih (by omega) fun next order holds consistent above =>
        split next order holds consistent (by omega)
      rw [filled] at before
      simp only [found, filled, ne_eq, not_true_eq_false, if_false]
      rcases outcome with ⟨failed, same⟩ | ⟨rfl, nonNull, consistent, -, -⟩
      · rw [if_pos failed]
        exact before
      · rw [above] at nonNull
        simp only [nonNull, not_true_eq_false, if_false]
        exact split next _ before consistent (by omega) (by omega) nonNull
    · simp only [ne_eq, found, not_false_eq_true, if_true]
      exact split s _ start invariant.consistent (by omega) (by omega) found

theorem getBuffer_closure {held : Finset Nat} {order : Nat} (property : Heap → Prop)
    (invariant : (System.mk s held).HeapInvariant regions) (start : property s)
    (split : ∀ next level flags, property next → (System.mk next held).Consistent regions →
      order ≤ level → level ≤ maxAddressableMemOrder → next.findBufferInBucket (level + 1) flags ≠ 0 →
      property (next.splitBuffer level (next.findBufferInBucket (level + 1) flags)))
    (depth : Nat) (flags : BitVec 32) (small : order ≤ maxAddressableMemOrder) :
    property (getBuffer depth s order flags).2 := by
  have levels : maxAddressableMemOrder + 1 - (maxAddressableMemOrder + 1 - order) = order := by omega
  have filled (flags : BitVec 32) : property (fillBucket flags (maxAddressableMemOrder + 1 - order) s).2 :=
    fillBucket_closure property invariant start _ (by omega) fun next level holds consistent above =>
      split next level flags holds consistent (by omega)
  induction depth generalizing flags with
  | zero =>
    unfold getBuffer
    dsimp only
    split
    · exact start
    · split
      · exact filled flags
      · split
        · exact filled flags
        · exact filled flags
  | succ depth ih =>
    unfold getBuffer
    dsimp only
    split
    · exact start
    · rename_i missing
      split
      · exact filled flags
      · rename_i failed
        split
        · exact filled flags
        · obtain ⟨retval, next, same, ⟨-, rfl⟩ | ⟨rfl, -⟩⟩ := fillBucket_supplies flags invariant
            (maxAddressableMemOrder + 1 - order) (by omega) (by rw [levels]; exact not_not.mp missing)
          · rw [same]
            exact ih MM_DMA
          · rw [same] at failed
            exact absurd rfl failed

theorem getBuffer_frame {held : Finset Nat} {order : Nat} (depth : Nat) (flags : BitVec 32)
    (small : order ≤ maxAddressableMemOrder) (invariant : (System.mk s held).HeapInvariant regions) :
    s.Frame {block | block + bufferSize ∈ held} (getBuffer depth s order flags).2 := by
  refine getBuffer_closure (fun next => s.Frame {block | block + bufferSize ∈ held} next) invariant
    (.refl _ s) (fun next level flags frame consistent _ _ found => frame.trans ?_) depth flags small
  obtain ⟨listed, -⟩ := findBufferInBucket_mem found
  have tile := consistent.layout_free listed
  have upper := consistent.absent (consistent.tiling.upper_none tile (show level < level + 1 by omega))
  exact .splitBuffer (consistent.apart _ _ listed) upper.2

theorem Heap.Frame.mergeBuffers {low high : Nat} (apart : low ∉ kept) :
    s.Frame kept (s.mergeBuffers low high) := by
  refine ⟨rfl, rfl, rfl, rfl, fun block inside => ?_⟩
  rw [buffer_mergeBuffers, if_neg]
  rintro rfl
  exact apart inside

theorem listed_of_merge {low high bucket k block : Nat} (listed : low ∈ s.mmBucket bucket)
    (inside : block ∈ (s.mergeBuffers low high).mmBucket k) : ∃ bucket, block ∈ s.mmBucket bucket := by
  rw [mmBucket_mergeBuffers] at inside
  split at inside
  · rcases mem_append.mp inside with old | new
    · exact ⟨k, mem_of_mem_erase (mem_of_mem_erase old)⟩
    · exact ⟨bucket, mem_singleton.mp new ▸ listed⟩
  · exact ⟨k, mem_of_mem_erase (mem_of_mem_erase inside)⟩

theorem defragment_cases (levels : Nat) {bucket block : Nat} (listed : block ∈ s.mmBucket bucket) :
    defragment (levels + 1) s block = s ∨ ∃ low high, (∃ k, low ∈ s.mmBucket k) ∧
      defragment (levels + 1) s block = defragment levels (s.mergeBuffers low high) low := by
  generalize result : defragment (levels + 1) s block = next
  unfold defragment at result
  dsimp only at result
  split at result
  · exact .inl result.symm
  · cases upper : block.testBit (s.buffer block).bucket with
    | false =>
      simp only [upper, Bool.false_eq_true, if_false] at result
      split at result
      · split at result
        · exact .inl result.symm
        · exact .inr ⟨_, _, ⟨bucket, listed⟩, result.symm⟩
      · exact .inl result.symm
    | true =>
      simp only [upper, if_true] at result
      split at result
      · rename_i low
        split at result
        · exact .inl result.symm
        · exact .inr ⟨_, _, ⟨_, low⟩, result.symm⟩
      · exact .inl result.symm

theorem defragment_frame (kept : Set Nat) (levels : Nat) {bucket block : Nat} (listed : block ∈ s.mmBucket bucket)
    (apart : ∀ bucket block, block ∈ s.mmBucket bucket → block ∉ kept) :
    s.Frame kept (defragment levels s block) := by
  induction levels generalizing s bucket block with
  | zero => exact .refl kept s
  | succ levels ih =>
    rcases defragment_cases levels listed with same | ⟨low, high, ⟨k, lower⟩, merged⟩
    · rw [same]
      exact .refl kept s
    · rw [merged]
      have joined : low ∈ (s.mergeBuffers low high).mmBucket ((s.buffer low).bucket + 1) := by
        rw [mmBucket_mergeBuffers, if_pos rfl]
        exact mem_append_right _ mem_cons_self
      refine (Heap.Frame.mergeBuffers (apart k low lower)).trans (ih joined fun k other inside => ?_)
      obtain ⟨_, before⟩ := listed_of_merge lower inside
      exact apart _ other before

end Frame

section Agree
variable {kept : Set Nat} {s t : Heap}

theorem Heap.Agree.refl (kept : Set Nat) (s : Heap) : s.Agree kept s :=
  ⟨rfl, rfl, rfl, rfl, rfl, fun _ _ _ => rfl, fun _ _ => rfl⟩

section
variable (agree : s.Agree kept t)
include agree

theorem Heap.Agree.findBufferInBucket (order : Nat) (flags : BitVec 32) :
    s.findBufferInBucket order flags = t.findBufferInBucket order flags := by
  have same : (s.mmBucket order).find? (s.suits flags) = (t.mmBucket order).find? (t.suits flags) := by
    rw [← agree.buckets]
    refine List.find?_congr fun block listed => ?_
    unfold Heap.suits Heap.flagsOf
    rw [agree.listed order block listed, agree.regions]
  unfold Heap.findBufferInBucket
  rw [same]

theorem Heap.Agree.splitBuffer (order : Nat) {k buffer1 : Nat} (listed : buffer1 ∈ s.mmBucket k) :
    (s.splitBuffer order buffer1).Agree kept (t.splitBuffer order buffer1) := by
  have header := agree.listed k buffer1 listed
  have written (block : Nat) (same : block ≠ buffer1 → block ≠ buffer1 + 2 ^ order → s.buffer block = t.buffer block) :
      (s.splitBuffer order buffer1).buffer block = (t.splitBuffer order buffer1).buffer block := by
    rw [buffer_splitBuffer, buffer_splitBuffer, header]
    split
    · rfl
    · rename_i other
      exact same (not_or.mp other).1 (not_or.mp other).2
  refine ⟨?_, agree.regions, agree.initialized, agree.total, agree.used, fun bucket block inside => ?_,
    fun block inside => written block fun _ _ => agree.header block inside⟩
  · funext bucket
    rw [mmBucket_splitBuffer, mmBucket_splitBuffer, agree.buckets]
  · refine written block fun low high => ?_
    rw [mmBucket_splitBuffer] at inside
    split at inside
    · simp only [mem_append, mem_singleton, low, high, or_false] at inside
      exact agree.listed bucket block (mem_of_mem_erase inside)
    · exact agree.listed bucket block (mem_of_mem_erase inside)

theorem Heap.Agree.mergeBuffers {k low : Nat} (high : Nat) (listed : low ∈ s.mmBucket k) :
    (s.mergeBuffers low high).Agree kept (t.mergeBuffers low high) := by
  have header := agree.listed k low listed
  have written (block : Nat) (same : block ≠ low → s.buffer block = t.buffer block) :
      (s.mergeBuffers low high).buffer block = (t.mergeBuffers low high).buffer block := by
    rw [buffer_mergeBuffers, buffer_mergeBuffers, header]
    split
    · rfl
    · rename_i other
      exact same other
  refine ⟨?_, agree.regions, agree.initialized, agree.total, agree.used, fun bucket block inside => ?_,
    fun block inside => written block fun _ => agree.header block inside⟩
  · funext bucket
    rw [mmBucket_mergeBuffers, mmBucket_mergeBuffers, agree.buckets, header]
  · obtain ⟨before, old⟩ := listed_of_merge listed inside
    exact written block fun _ => agree.listed before block old

theorem Heap.Agree.fillBucket (flags : BitVec 32) (levels : Nat) :
    (fillBucket flags levels s).1 = (fillBucket flags levels t).1 ∧
      (fillBucket flags levels s).2.Agree kept (fillBucket flags levels t).2 := by
  induction levels with
  | zero => exact ⟨rfl, agree⟩
  | succ levels ih =>
    unfold Mm.fillBucket
    dsimp only
    rw [← agree.findBufferInBucket]
    by_cases found : s.findBufferInBucket (maxAddressableMemOrder - levels + 1) flags = 0
    · simp only [found, ne_eq, not_true_eq_false, if_false]
      obtain ⟨same, later⟩ := ih
      generalize Mm.fillBucket flags levels s = one at same later ⊢
      generalize Mm.fillBucket flags levels t = other at same later ⊢
      obtain ⟨retval, s⟩ := one
      obtain ⟨_, t⟩ := other
      obtain rfl : retval = _ := same
      dsimp only
      rw [← later.findBufferInBucket]
      by_cases failed : retval = 0
      · by_cases again : s.findBufferInBucket (maxAddressableMemOrder - levels + 1) flags = 0
        · simp only [failed, again, not_true_eq_false, if_false, if_true]
          exact ⟨trivial, later⟩
        · simp only [failed, again, not_true_eq_false, if_false]
          exact ⟨trivial, later.splitBuffer _ (findBufferInBucket_mem again).1⟩
      · simp only [failed, not_false_eq_true, if_true]
        exact ⟨trivial, later⟩
    · simp only [ne_eq, found, not_false_eq_true, if_true]
      exact ⟨trivial, agree.splitBuffer _ (findBufferInBucket_mem found).1⟩

theorem Heap.Agree.getBuffer (depth order : Nat) (flags : BitVec 32) :
    (getBuffer depth s order flags).1 = (getBuffer depth t order flags).1 ∧
      (getBuffer depth s order flags).2.Agree kept (getBuffer depth t order flags).2 := by
  induction depth generalizing s t flags with
  | zero =>
    unfold Mm.getBuffer
    dsimp only
    rw [← agree.findBufferInBucket]
    split
    · exact ⟨rfl, agree⟩
    · obtain ⟨same, later⟩ := agree.fillBucket flags (maxAddressableMemOrder + 1 - order)
      rw [← same]
      split
      · exact ⟨later.findBufferInBucket order flags, later⟩
      · split
        · exact ⟨rfl, later⟩
        · exact ⟨rfl, later⟩
  | succ depth ih =>
    unfold Mm.getBuffer
    dsimp only
    rw [← agree.findBufferInBucket]
    split
    · exact ⟨rfl, agree⟩
    · obtain ⟨same, later⟩ := agree.fillBucket flags (maxAddressableMemOrder + 1 - order)
      rw [← same]
      split
      · exact ⟨later.findBufferInBucket order flags, later⟩
      · split
        · exact ⟨rfl, later⟩
        · exact ih later MM_DMA

theorem Heap.Agree.defragment (levels : Nat) {bucket block : Nat} (listed : block ∈ s.mmBucket bucket) :
    (defragment levels s block).Agree kept (defragment levels t block) := by
  induction levels generalizing s t bucket block with
  | zero => exact agree
  | succ levels ih =>
    have merged {k low : Nat} (high : Nat) (lower : low ∈ s.mmBucket k) :
        (Mm.defragment levels (s.mergeBuffers low high) low).Agree kept
          (Mm.defragment levels (t.mergeBuffers low high) low) := by
      have joined : low ∈ (s.mergeBuffers low high).mmBucket ((s.buffer low).bucket + 1) := by
        rw [mmBucket_mergeBuffers, if_pos rfl]
        exact mem_append_right _ mem_cons_self
      exact ih (agree.mergeBuffers high lower) joined
    unfold Mm.defragment
    dsimp only
    rw [← agree.listed bucket block listed, ← agree.buckets]
    split
    · exact agree
    · cases upper : block.testBit (s.buffer block).bucket with
      | false =>
        simp only [Bool.false_eq_true, if_false]
        split
        · rename_i high
          rw [← agree.listed _ _ high, ← agree.listed _ _ listed]
          split
          · exact agree
          · exact merged _ listed
        · exact agree
      | true =>
        simp only [if_true]
        split
        · rename_i low
          rw [← agree.listed _ _ low, ← agree.listed _ _ listed]
          split
          · exact agree
          · exact merged _ low
        · exact agree

end

end Agree

end Phabos.Mm
