import Phabos.Proof.Mm.ClientInvariant

namespace Phabos.Mm
open Library
variable {regions : List MmRegion}

/-- The first suitable buffer of the lowest order above the levels that has one, or the null pointer. -/
def Heap.lowestSuitable (s : Heap) (flags : BitVec 32) : Nat → Nat
  | 0 => 0
  | levels + 1 =>
    let buffer := s.findBufferInBucket (maxAddressableMemOrder - levels) flags
    if buffer ≠ 0 then buffer else s.lowestSuitable flags levels

/-- The free block that a request is cut from, which has its address. -/
def Heap.firstFit (s : Heap) (order : Nat) (flags : BitVec 32) : Nat :=
  s.lowestSuitable (if s.CanSupply order flags then flags else MM_DMA) (maxAddressableMemOrder + 1 - order)

section Fit
variable {held : Finset Nat} {s : Heap} {order : Nat} {flags : BitVec 32}

theorem lowestSuitable_counted (s : Heap) (order : Nat) (flags : BitVec 32) (levels : Nat) :
    (s.counted order).lowestSuitable flags levels = s.lowestSuitable flags levels := by
  induction levels with
  | zero => rfl
  | succ levels ih =>
    unfold Heap.lowestSuitable
    rw [ih]
    rfl

theorem fillBucket_lowestSuitable (flags : BitVec 32) (invariant : (System.mk s held).HeapInvariant regions)
    (levels : Nat) (small : levels ≤ maxAddressableMemOrder + 1)
    (missing : s.findBufferInBucket (maxAddressableMemOrder + 1 - levels) flags = 0)
    (filled : (fillBucket flags levels s).1 = 0) :
    (fillBucket flags levels s).2.findBufferInBucket (maxAddressableMemOrder + 1 - levels) flags =
      s.lowestSuitable flags levels := by
  induction levels with
  | zero =>
    have failed : ¬-ENOMEM = 0 := by decide
    exact absurd filled failed
  | succ levels ih =>
    have order : maxAddressableMemOrder + 1 - (levels + 1) = maxAddressableMemOrder - levels := by omega
    have above : maxAddressableMemOrder + 1 - levels = maxAddressableMemOrder - levels + 1 := by omega
    rw [order] at missing ⊢
    rw [above] at ih
    -- the half that the split leaves first has the address of the block above
    have half {next : Heap} (consistent : (System.mk next held).Consistent regions)
        (none : next.findBufferInBucket (maxAddressableMemOrder - levels) flags = 0)
        (found : next.findBufferInBucket (maxAddressableMemOrder - levels + 1) flags ≠ 0) :
        (next.splitBuffer (maxAddressableMemOrder - levels)
          (next.findBufferInBucket (maxAddressableMemOrder - levels + 1) flags)).findBufferInBucket
            (maxAddressableMemOrder - levels) flags =
          next.findBufferInBucket (maxAddressableMemOrder - levels + 1) flags := by
      obtain ⟨listed, suitable⟩ := findBufferInBucket_mem found
      have upper := consistent.absent (consistent.tiling.upper_none (consistent.layout_free listed)
        (show maxAddressableMemOrder - levels < maxAddressableMemOrder - levels + 1 by omega))
      exact findBufferInBucket_split (by omega)
        (findBufferInBucket_none (by omega) (consistent.nonNull_listed _) none) (upper.1 _) suitable
    have lowest : s.lowestSuitable flags (levels + 1) = s.lowestSuitable flags levels := by
      rw [Heap.lowestSuitable, if_neg (not_not.mpr missing)]
    rw [lowest]
    unfold fillBucket at filled ⊢
    dsimp only at filled ⊢
    by_cases found : s.findBufferInBucket (maxAddressableMemOrder - levels + 1) flags = 0
    · obtain ⟨retval, next, same, outcome⟩ := fillBucket_supplies flags invariant levels (by omega) (above ▸ found)
      have below := ih (by omega) found
      rw [same] at below
      simp only [found, same, ne_eq, not_true_eq_false, if_false] at filled ⊢
      rcases outcome with ⟨failed, -⟩ | ⟨rfl, nonNull, consistent, -, lower⟩
      · rw [if_pos failed] at filled
        exact absurd filled failed
      · rw [above] at nonNull lower
        simp only [nonNull, not_true_eq_false, if_false]
        rw [half consistent ((lower _ (by omega)).trans missing) nonNull]
        exact below rfl
    · simp only [found, ne_eq, not_false_eq_true, if_true]
      rw [half invariant.consistent missing found]
      cases levels with
      | zero => exact absurd (if_pos (Nat.lt_succ_self _)) found
      | succ levels =>
        have next : maxAddressableMemOrder - (levels + 1) + 1 = maxAddressableMemOrder - levels := by omega
        rw [next] at found ⊢
        rw [Heap.lowestSuitable, if_pos found]

theorem getBuffer_lowestSuitable (invariant : (System.mk s held).HeapInvariant regions)
    (small : order ≤ maxAddressableMemOrder) (supply : s.CanSupply order flags) (depth : Nat) :
    (getBuffer depth s order flags).1 = s.lowestSuitable flags (maxAddressableMemOrder + 1 - order) := by
  have levels : maxAddressableMemOrder + 1 - (maxAddressableMemOrder + 1 - order) = order := by omega
  have succeeds := fillBucket_succeeds_iff flags invariant (maxAddressableMemOrder + 1 - order) (by omega)
  have lowest := fillBucket_lowestSuitable flags invariant (maxAddressableMemOrder + 1 - order) (by omega)
  rw [levels] at succeeds lowest
  unfold getBuffer
  dsimp only
  by_cases missing : s.findBufferInBucket order flags = 0
  · have larger := ((canSupply_iff invariant.consistent).mp supply).resolve_left (not_not.mpr missing)
    have filled := succeeds.mpr larger
    rw [if_neg (not_not.mpr missing), if_pos filled]
    exact lowest missing filled
  · obtain ⟨below, equal⟩ : ∃ below, maxAddressableMemOrder + 1 - order = below + 1 :=
      ⟨maxAddressableMemOrder - order, by omega⟩
    have here : maxAddressableMemOrder - below = order := by omega
    rw [if_pos missing, equal, Heap.lowestSuitable]
    dsimp only
    rw [here, if_pos missing]

theorem getBuffer_firstFit (flags : BitVec 32) (invariant : (System.mk s held).HeapInvariant regions)
    (small : order ≤ maxAddressableMemOrder) (meets : s.Meets order flags) :
    (getBuffer 1 s order flags).1 = s.firstFit order flags := by
  unfold Heap.firstFit
  by_cases supply : s.CanSupply order flags
  · rw [if_pos supply]
    exact getBuffer_lowestSuitable invariant small supply 1
  · obtain ⟨dma, other⟩ := meets.resolve_left supply
    rw [getBuffer_of_not_canSupply invariant small supply, if_neg (not_not.mpr dma), if_neg supply]
    exact getBuffer_lowestSuitable invariant small other 0

theorem kmalloc_firstFit (flags : BitVec 32) (invariant : (System.mk s held).HeapInvariant regions)
    {size : BitVec 32} (some : size ≠ 0) (small : requestOrder size ≤ maxAddressableMemOrder) (meets : s.Meets (requestOrder size) flags) :
    (kmalloc s size flags).1 = s.firstFit (requestOrder size) flags + bufferSize := by
  have found := getBuffer_firstFit flags (invariant.counted (requestOrder size)) small meets
  have nonNull := ((if_pos (c := (s.counted (requestOrder size)).Meets (requestOrder size) flags) meets).mp
    (getBuffer_outcome flags (invariant.counted (requestOrder size)) small)).1
  have same : (s.counted (requestOrder size)).firstFit (requestOrder size) flags =
      s.firstFit (requestOrder size) flags := lowestSuitable_counted ..
  rw [kmalloc_eq s flags some, if_neg (Nat.not_lt.mpr small)]
  dsimp only
  rw [if_neg nonNull, found, same]

end Fit

end Phabos.Mm
