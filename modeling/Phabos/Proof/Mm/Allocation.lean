import Mathlib.Data.Nat.Log
import Phabos.Proof.Mm.Availability

namespace Phabos.Mm
open Library
variable {regions : List MmRegion}

section Order

theorem sizeToOrderLoop_spec (fuel : Nat) {size : Nat} (positive : 0 < size) (short : size < 2 ^ fuel)
    (order : Int) (bits : Nat) :
    (sizeToOrderLoop fuel size order bits).1 = order + 1 + Nat.log 2 size ∧
      bits < (sizeToOrderLoop fuel size order bits).2 ∧
      ((sizeToOrderLoop fuel size order bits).2 = bits + 1 ↔ size = 2 ^ Nat.log 2 size) := by
  induction fuel generalizing size order bits with
  | zero => omega
  | succ fuel ih =>
    unfold sizeToOrderLoop
    rw [if_neg (Nat.ne_of_gt positive)]
    by_cases one : size = 1
    · subst size
      have last : sizeToOrderLoop fuel (1 / 2) (order + 1) (bits + 1 % 2) = (order + 1, bits + 1) := by
        cases fuel with
        | zero => rfl
        | succ fuel => rfl
      rw [last]
      simp
    · have half : 0 < size / 2 := by omega
      obtain ⟨length, more, power⟩ := ih half (by omega) (order + 1) (bits + size % 2)
      have log : Nat.log 2 size = Nat.log 2 (size / 2) + 1 := Nat.log_of_one_lt_of_le (by decide) (by omega)
      refine ⟨by omega, by omega, ?_⟩
      rw [log, Nat.pow_succ]
      rcases Nat.mod_two_eq_zero_or_one size with even | odd
      · rw [even, Nat.add_zero] at power more ⊢
        rw [power]
        omega
      · rw [odd] at more ⊢
        omega

theorem sizeToOrder_eq_clog {size : Nat} (positive : 0 < size) (short : size < 2 ^ 32) :
    sizeToOrder size = Nat.clog 2 size := by
  obtain ⟨length, -, power⟩ := sizeToOrderLoop_spec 32 positive short (-1) 0
  have low : 2 ^ Nat.log 2 size ≤ size := Nat.pow_log_le_self 2 (Nat.ne_of_gt positive)
  have high : size < 2 ^ (Nat.log 2 size + 1) := Nat.lt_pow_succ_log_self (by decide) size
  unfold sizeToOrder
  generalize sizeToOrderLoop 32 size (-1) 0 = result at length power
  obtain ⟨order, bits⟩ := result
  dsimp only at length power ⊢
  rw [Nat.zero_add] at power
  by_cases exact : size = 2 ^ Nat.log 2 size
  · have same : Nat.clog 2 size = Nat.log 2 size := by
      conv_lhs => rw [exact]
      exact Nat.clog_pow 2 _ (by decide)
    rw [if_pos (power.mpr exact), same]
    omega
  · have upper : Nat.clog 2 size ≤ Nat.log 2 size + 1 := Nat.clog_le_of_le_pow (Nat.le_of_lt high)
    have lower : Nat.log 2 size < Nat.clog 2 size :=
      (Nat.lt_clog_iff_pow_lt (by decide)).mpr (Nat.lt_of_le_of_ne low (Ne.symm exact))
    rw [if_neg (fun one => exact (power.mp one))]
    omega

theorem orderToSize_toNat : ∀ order ≤ maxAddressableMemOrder, (orderToSize order).toNat = 2 ^ order := by decide

/-- The order of the block that a request takes. -/
def requestOrder (size : BitVec 32) : Nat := (sizeToOrder (size + BitVec.ofNat 32 bufferSize).toNat).toNat

theorem sizeToOrder_nonneg (size : Nat) (short : size < 2 ^ 32) : 0 ≤ sizeToOrder size := by
  rcases Nat.eq_zero_or_pos size with rfl | positive
  · decide
  · rw [sizeToOrder_eq_clog positive short]
    exact Int.natCast_nonneg _

/-- The order of a request is the least power of two that holds it with its header. -/
theorem requestOrder_eq_clog {size : BitVec 32} (short : size.toNat + bufferSize < 2 ^ 32) :
    requestOrder size = Nat.clog 2 (size.toNat + bufferSize) := by
  have sum : (size + BitVec.ofNat 32 bufferSize).toNat = size.toNat + bufferSize := by
    rw [BitVec.toNat_add, BitVec.toNat_ofNat]
    have header : bufferSize % 2 ^ 32 = bufferSize := by decide
    rw [header, Nat.mod_eq_of_lt short]
  have positive : 0 < size.toNat + bufferSize := by
    unfold bufferSize
    omega
  unfold requestOrder
  rw [sum, sizeToOrder_eq_clog positive short, Int.toNat_natCast]

theorem requestOrder_of_wrap {size : BitVec 32} (wraps : 2 ^ 32 ≤ size.toNat + bufferSize) :
    requestOrder size ≤ 4 := by
  have bound := size.isLt
  have sum : (size + BitVec.ofNat 32 bufferSize).toNat = size.toNat + bufferSize - 2 ^ 32 := by
    rw [BitVec.toNat_add, BitVec.toNat_ofNat]
    unfold bufferSize at wraps ⊢
    omega
  have small : size.toNat + bufferSize - 2 ^ 32 < 16 := by
    unfold bufferSize
    omega
  have orders : ∀ rest < 16, (sizeToOrder rest).toNat ≤ 4 := by decide
  unfold requestOrder
  rw [sum]
  exact orders _ small

end Order

/-- A block of the order leaves the free blocks for its caller, and nothing else that is held changes. -/
structure Allocated (regions : List MmRegion) (held : Finset Nat) (order : Nat) (flags : BitVec 32)
    (s : Heap) (block : Nat) (next : Heap) : Prop where
  kept : (System.mk next (insert (block + bufferSize) held)).HeapInvariant regions
  fresh : block + bufferSize ∉ held
  bucket : (next.buffer block).bucket = order
  suits : next.suits flags block = true
  frame : s.Frame {block | block + bufferSize ∈ held} next

section Kmalloc
variable {held : Finset Nat} {s : Heap}

/-- The heap after `kmalloc` has counted a block of the order. -/
def Heap.counted (s : Heap) (order : Nat) : Heap := { s with used := s.used + orderToSize order }

theorem kmalloc_eq (s : Heap) (flags : BitVec 32) {size : BitVec 32} (some : size ≠ 0) :
    kmalloc s size flags =
      if maxAddressableMemOrder < requestOrder size then (0, s.counted (requestOrder size))
      else
        let found := getBuffer 1 (s.counted (requestOrder size)) (requestOrder size) flags
        if found.1 = 0 then (0, found.2) else (found.1 + bufferSize, found.2.listDel found.1) := by
  have nonneg := sizeToOrder_nonneg (size + BitVec.ofNat 32 bufferSize).toNat (BitVec.isLt _)
  unfold kmalloc
  rw [if_neg some]
  dsimp only
  rw [if_neg (Int.not_lt.mpr nonneg)]
  rfl

theorem System.HeapInvariant.counted (invariant : (System.mk s held).HeapInvariant regions) (order : Nat) :
    (System.mk (s.counted order) held).HeapInvariant regions :=
  ⟨invariant.consistent.setUsed _, invariant.buddyFree⟩

/-- What `kmalloc` does for no bytes, for a request that is met and for one that is not. -/
theorem kmalloc_outcome (invariant : (System.mk s held).HeapInvariant regions) (size flags : BitVec 32) :
    if size = 0 then kmalloc s size flags = (0, s)
    else if requestOrder size ≤ maxAddressableMemOrder ∧ s.Meets (requestOrder size) flags then
      ∃ block next, kmalloc s size flags = (block + bufferSize, next) ∧
        Allocated regions held (requestOrder size)
          (if s.CanSupply (requestOrder size) flags then flags else MM_DMA) (s.counted (requestOrder size))
          block next
    else kmalloc s size flags = (0, s.counted (requestOrder size)) := by
  by_cases empty : size = 0
  · rw [if_pos empty]
    exact if_pos empty
  rw [if_neg empty, kmalloc_eq s flags empty]
  by_cases large : maxAddressableMemOrder < requestOrder size
  · rw [if_pos large, if_neg fun both => Nat.not_lt.mpr both.1 large]
  rw [if_neg large]
  have small := Nat.not_lt.mp large
  have outcome := getBuffer_outcome flags (invariant.counted (requestOrder size)) small
  have frame := getBuffer_frame 1 flags small (invariant.counted (requestOrder size))
  obtain ⟨buffer, next, returned, returns⟩ :=
    getBuffer_returns 1 flags small (invariant.counted (requestOrder size))
  rw [returned] at outcome frame ⊢
  dsimp only at outcome frame ⊢
  by_cases meets : s.Meets (requestOrder size) flags
  · obtain ⟨nonNull, suits⟩ := (if_pos (c := (s.counted (requestOrder size)).Meets (requestOrder size) flags) meets).mp outcome
    rw [if_pos ⟨small, meets⟩, if_neg nonNull]
    obtain ⟨-, listed, consistent, except⟩ := returns.resolve_left fun failed => nonNull failed.1
    obtain ⟨taken, marked⟩ := consistent.take listed
    refine ⟨buffer, next.listDel buffer, rfl, ⟨taken, ?_⟩, consistent.apart _ _ listed,
      consistent.recorded _ _ listed, suits, { frame with }⟩
    rw [marked]
    exact except.taken
  · obtain ⟨rfl, rfl⟩ := Prod.mk.inj (Eq.mp (if_neg meets) outcome)
    rw [if_neg fun both => meets both.2]
    rfl

end Kmalloc

section Kfree
variable {held : Finset Nat} {s : Heap} {block : Nat}

theorem kfree_eq (apart : ∀ bucket, block ∉ s.mmBucket bucket) :
    kfree s (block + bufferSize) = defragment (maxAddressableMemOrder + 1)
      (({ s with used := s.used - orderToSize (s.buffer block).bucket } : Heap).listAdd (s.buffer block).bucket block)
      block := by
  have nonNull : block + bufferSize ≠ 0 := by
    unfold bufferSize
    omega
  have alone : s.prevIsNext block := fun bucket _ listed => absurd listed (apart bucket)
  unfold kfree
  simp only [if_neg nonNull, Nat.add_sub_cancel, alone, not_true_eq_false, if_false]

theorem kfree_frame (invariant : (System.mk s held).HeapInvariant regions) (inside : block + bufferSize ∈ held) :
    ({ s with used := s.used - orderToSize (s.buffer block).bucket } : Heap).Frame
      {other | other + bufferSize ∈ held.erase (block + bufferSize)} (kfree s (block + bufferSize)) := by
  have consistent := invariant.consistent
  rw [kfree_eq fun bucket listed => consistent.apart bucket block listed inside]
  have listed : block ∈ (({ s with used := s.used - orderToSize (s.buffer block).bucket } : Heap).listAdd
      (s.buffer block).bucket block).mmBucket (s.buffer block).bucket := (mem_listAdd _).mpr (.inr ⟨rfl, rfl⟩)
  have frame := defragment_frame {other | other + bufferSize ∈ held.erase (block + bufferSize)}
    (maxAddressableMemOrder + 1) listed fun bucket other there kept => by
      obtain ⟨different, still⟩ := Finset.mem_erase.mp kept
      rcases (mem_listAdd _).mp there with old | ⟨-, rfl⟩
      · exact consistent.apart bucket other old still
      · exact different rfl
  exact { frame with }

end Kfree

section Agree
variable {kept : Set Nat} {held : Finset Nat} {s t : Heap}

theorem Heap.Agree.setUsed (agree : s.Agree kept t) (used : BitVec 32) :
    ({ s with used := used } : Heap).Agree kept { t with used := used } :=
  { agree with used := rfl }

theorem Heap.Agree.mono {fewer : Set Nat} (agree : s.Agree kept t) (subset : fewer ⊆ kept) : s.Agree fewer t :=
  { agree with header := fun block inside => agree.header block (subset inside) }

theorem Heap.Agree.listDel (agree : s.Agree kept t) {bucket block : Nat} (listed : block ∈ s.mmBucket bucket) :
    (s.listDel block).Agree (insert block kept) (t.listDel block) := by
  refine ⟨?_, agree.regions, agree.initialized, agree.total, agree.used,
    fun k other inside => agree.listed k other (List.mem_of_mem_erase inside), fun other inside => ?_⟩
  · funext k
    unfold Heap.listDel
    rw [agree.buckets]
  · rcases inside with rfl | old
    · exact agree.listed bucket other listed
    · exact agree.header other old

theorem Heap.Agree.listAdd (agree : s.Agree kept t) {block : Nat} (same : s.buffer block = t.buffer block)
    (bucket : Nat) : (s.listAdd bucket block).Agree kept (t.listAdd bucket block) := by
  refine { agree with buckets := ?_, listed := fun k other inside => ?_ }
  · unfold Heap.listAdd
    rw [agree.buckets]
  · rcases (mem_listAdd s).mp inside with old | ⟨-, rfl⟩
    · exact agree.listed k other old
    · exact same

theorem Heap.Agree.kmalloc (agree : s.Agree kept t) (invariant : (System.mk t held).HeapInvariant regions)
    (size flags : BitVec 32) :
    (kmalloc s size flags).1 = (kmalloc t size flags).1 ∧ (kmalloc s size flags).2.Agree
      (if (kmalloc t size flags).1 = 0 then kept else insert ((kmalloc t size flags).1 - bufferSize) kept)
      (kmalloc t size flags).2 := by
  by_cases empty : size = 0
  · have nothing (heap : Heap) : Mm.kmalloc heap size flags = (0, heap) := if_pos empty
    rw [nothing s, nothing t]
    exact ⟨rfl, agree⟩
  rw [kmalloc_eq s flags empty, kmalloc_eq t flags empty]
  have counted : (s.counted (requestOrder size)).Agree kept (t.counted (requestOrder size)) := by
    unfold Heap.counted
    rw [agree.used]
    exact agree.setUsed _
  by_cases large : maxAddressableMemOrder < requestOrder size
  · rw [if_pos large, if_pos large]
    exact ⟨rfl, counted⟩
  rw [if_neg large, if_neg large]
  obtain ⟨same, later⟩ := counted.getBuffer 1 (requestOrder size) flags
  obtain ⟨buffer, next, returned, returns⟩ :=
    getBuffer_returns 1 flags (Nat.not_lt.mp large) (invariant.counted (requestOrder size))
  rw [returned] at same later ⊢
  dsimp only at same later ⊢
  rw [same]
  by_cases failed : buffer = 0
  · simp only [if_pos failed, if_true]
    exact ⟨trivial, later⟩
  · have different : ¬buffer + bufferSize = 0 := by
      unfold bufferSize
      omega
    obtain ⟨-, listed, -⟩ := returns.resolve_left fun none => failed none.1
    simp only [if_neg failed, if_neg different, Nat.add_sub_cancel]
    rw [← later.buckets] at listed
    exact ⟨trivial, later.listDel listed⟩

theorem Heap.Agree.kfree {block : Nat} (agree : s.Agree kept t) (same : s.buffer block = t.buffer block)
    (apart : ∀ bucket, block ∉ t.mmBucket bucket) :
    (kfree s (block + bufferSize)).Agree kept (kfree t (block + bufferSize)) := by
  rw [kfree_eq apart, kfree_eq fun bucket listed => apart bucket (agree.buckets ▸ listed), same, agree.used]
  have counted := agree.setUsed (t.used - orderToSize (t.buffer block).bucket)
  exact (counted.listAdd same _).defragment _ ((mem_listAdd _).mpr (.inr ⟨rfl, rfl⟩))

end Agree

end Phabos.Mm
