import Phabos.Proof.Mm.HeapFrame

namespace Phabos.Mm
open Library
variable {regions : List MmRegion}

/-- A free block of the order or a larger one has the wanted flags. -/
def Heap.CanSupply (s : Heap) (order : Nat) (flags : BitVec 32) : Prop :=
  ∃ bucket ≤ maxAddressableMemOrder, order ≤ bucket ∧ ∃ block ∈ s.mmBucket bucket, s.suits flags block = true

instance (s : Heap) (order : Nat) (flags : BitVec 32) : Decidable (s.CanSupply order flags) :=
  inferInstanceAs (Decidable (∃ bucket ≤ maxAddressableMemOrder, _))

/-- A request is met with the wanted flags, or else without `MM_DMA` from the memory for DMA. -/
def Heap.Meets (s : Heap) (order : Nat) (flags : BitVec 32) : Prop :=
  s.CanSupply order flags ∨ flags &&& MM_DMA = 0 ∧ s.CanSupply order MM_DMA

instance (s : Heap) (order : Nat) (flags : BitVec 32) : Decidable (s.Meets order flags) :=
  inferInstanceAs (Decidable (_ ∨ _))

section Search
variable {held : Finset Nat} {s : Heap} {order : Nat} {flags : BitVec 32}

theorem System.Consistent.nonNull_listed (consistent : (System.mk s held).Consistent regions) (bucket : Nat) :
    0 ∉ s.mmBucket bucket :=
  fun listed => (consistent.tile_bounds (consistent.layout_free listed)).2 rfl

theorem canSupply_iff (consistent : (System.mk s held).Consistent regions) :
    s.CanSupply order flags ↔ s.findBufferInBucket order flags ≠ 0 ∨ s.CanSupply (order + 1) flags := by
  constructor
  · rintro ⟨bucket, small, above, block, listed, suitable⟩
    rcases Nat.lt_or_eq_of_le above with larger | rfl
    · exact .inr ⟨bucket, small, larger, block, listed, suitable⟩
    · refine .inl fun missing => ?_
      rw [findBufferInBucket_none small (consistent.nonNull_listed _) missing block listed] at suitable
      cases suitable
  · rintro (found | ⟨bucket, small, above, rest⟩)
    · have small : order ≤ maxAddressableMemOrder := by
        by_contra large
        exact found (if_pos (Nat.lt_of_not_le large))
      obtain ⟨listed, suitable⟩ := findBufferInBucket_mem found
      exact ⟨order, small, Nat.le_refl _, _, listed, suitable⟩
    · exact ⟨bucket, small, by omega, rest⟩

theorem fillBucket_succeeds_iff (flags : BitVec 32) (invariant : (System.mk s held).HeapInvariant regions)
    (levels : Nat) (small : levels ≤ maxAddressableMemOrder + 1) :
    (fillBucket flags levels s).1 = 0 ↔ s.CanSupply (maxAddressableMemOrder + 1 - levels + 1) flags := by
  induction levels with
  | zero =>
    have failed : ¬-ENOMEM = 0 := by decide
    refine ⟨fun succeeded => absurd succeeded failed, ?_⟩
    rintro ⟨bucket, bound, above, -⟩
    omega
  | succ levels ih =>
    have order : maxAddressableMemOrder + 1 - (levels + 1) + 1 = maxAddressableMemOrder + 1 - levels := by omega
    have above : maxAddressableMemOrder - levels + 1 = maxAddressableMemOrder + 1 - levels := by omega
    rw [order, canSupply_iff invariant.consistent, ← ih (by omega)]
    rw [fillBucket]
    dsimp only
    rw [above]
    by_cases found : s.findBufferInBucket (maxAddressableMemOrder + 1 - levels) flags = 0
    · obtain ⟨retval, next, filled, ⟨failed, rfl⟩ | ⟨rfl, nonNull, -⟩⟩ :=
        fillBucket_supplies flags invariant levels (by omega) found
      · simp [found, filled, failed]
      · simp [found, filled, nonNull]
    · simp [found]

theorem getBuffer_of_canSupply (invariant : (System.mk s held).HeapInvariant regions)
    (small : order ≤ maxAddressableMemOrder) (supply : s.CanSupply order flags) (depth : Nat) :
    (getBuffer depth s order flags).1 ≠ 0 ∧
      (getBuffer depth s order flags).2.suits flags (getBuffer depth s order flags).1 = true := by
  have levels : maxAddressableMemOrder + 1 - (maxAddressableMemOrder + 1 - order) = order := by omega
  have succeeds := fillBucket_succeeds_iff flags invariant (maxAddressableMemOrder + 1 - order) (by omega)
  have supplies := fillBucket_supplies flags invariant (maxAddressableMemOrder + 1 - order) (by omega)
  rw [levels] at succeeds supplies
  unfold getBuffer
  dsimp only
  by_cases missing : s.findBufferInBucket order flags = 0
  · obtain ⟨retval, next, filled, outcome⟩ := supplies missing
    rw [filled] at succeeds
    have larger := ((canSupply_iff invariant.consistent).mp supply).resolve_left (not_not.mpr missing)
    obtain rfl : retval = 0 := succeeds.mpr larger
    rcases outcome with ⟨failed, -⟩ | ⟨-, nonNull, -⟩
    · exact absurd rfl failed
    · simp only [missing, filled, ne_eq, not_true_eq_false, if_false, if_true]
      exact ⟨nonNull, (findBufferInBucket_mem nonNull).2⟩
  · rw [if_pos missing]
    exact ⟨missing, (findBufferInBucket_mem missing).2⟩

theorem getBuffer_of_not_canSupply (invariant : (System.mk s held).HeapInvariant regions)
    (small : order ≤ maxAddressableMemOrder) (none : ¬s.CanSupply order flags) (depth : Nat) :
    getBuffer depth s order flags =
      if flags &&& MM_DMA ≠ 0 then (0, s) else match depth with
        | 0 => (0, s)
        | depth + 1 => getBuffer depth s order MM_DMA := by
  have levels : maxAddressableMemOrder + 1 - (maxAddressableMemOrder + 1 - order) = order := by omega
  have succeeds := fillBucket_succeeds_iff flags invariant (maxAddressableMemOrder + 1 - order) (by omega)
  have supplies := fillBucket_supplies flags invariant (maxAddressableMemOrder + 1 - order) (by omega)
  rw [levels] at succeeds supplies
  rw [canSupply_iff invariant.consistent, not_or, not_not] at none
  obtain ⟨retval, next, filled, outcome⟩ := supplies none.1
  rw [filled] at succeeds
  have failed : retval ≠ 0 := fun success => none.2 (succeeds.mp success)
  obtain rfl : next = s := (outcome.resolve_right fun success => failed success.1).2
  cases depth with
  | zero | succ depth =>
    conv_lhs => unfold getBuffer
    simp only [none.1, filled, failed, ne_eq, not_true_eq_false, if_false]

/-- What a search returns: a block with the wanted flags if there is one, else one for DMA if the
request is not for DMA, else nothing. -/
theorem getBuffer_outcome (flags : BitVec 32) (invariant : (System.mk s held).HeapInvariant regions)
    (small : order ≤ maxAddressableMemOrder) :
    if s.Meets order flags then
      (getBuffer 1 s order flags).1 ≠ 0 ∧ (getBuffer 1 s order flags).2.suits
        (if s.CanSupply order flags then flags else MM_DMA) (getBuffer 1 s order flags).1 = true
    else getBuffer 1 s order flags = (0, s) := by
  by_cases supply : s.CanSupply order flags
  · rw [if_pos (.inl supply), if_pos supply]
    exact getBuffer_of_canSupply invariant small supply 1
  · rw [getBuffer_of_not_canSupply invariant small supply]
    by_cases dma : flags &&& MM_DMA = 0
    · rw [if_neg (not_not.mpr dma), if_neg supply]
      dsimp only
      split
      · rename_i meets
        exact getBuffer_of_canSupply invariant small (meets.resolve_left supply).2 0
      · rename_i fails
        rw [getBuffer_of_not_canSupply invariant small fun there => fails (.inr ⟨dma, there⟩)]
        exact if_pos (by decide)
    · rw [if_pos dma, if_neg fun meets => meets.elim supply fun other => dma other.1]

end Search

end Phabos.Mm
