import Phabos.Library.Alignment
import Phabos.Proof.Mm.Allocation
import Phabos.Proof.Mm.BuddyHeap

namespace Phabos.Mm
open Library List

section Words
variable {order : Nat}

theorem and_not_mask (x : BitVec 32) (small : order ≤ maxAddressableMemOrder) :
    (x &&& ~~~(1#32 <<< order - 1)).toNat = x.toNat - x.toNat % 2 ^ order := by
  have mask : (1#32 <<< order - 1).toNat = 2 ^ order - 1 := by
    have power : (1#32 <<< order).toNat = 2 ^ order := orderToSize_toNat order small
    have positive := Nat.two_pow_pos order
    rw [BitVec.toNat_sub_of_le]
    · rw [power]
      rfl
    · rw [BitVec.le_def, power]
      exact positive
  have multiple : x.toNat - x.toNat % 2 ^ order = 2 ^ order * (x.toNat / 2 ^ order) :=
    (Nat.eq_sub_of_add_eq (Nat.div_add_mod ..)).symm
  rw [multiple]
  refine Nat.eq_of_testBit_eq fun i => ?_
  rw [Nat.testBit_two_pow_mul, Nat.testBit_div_two_pow]
  change (x &&& ~~~(1#32 <<< order - 1)).getLsbD i = _
  rw [BitVec.getLsbD_and, BitVec.getLsbD_not]
  have masked : (1#32 <<< order - 1).getLsbD i = decide (i < order) := by
    change (1#32 <<< order - 1).toNat.testBit i = _
    rw [mask, Nat.testBit_two_pow_sub_one]
  rw [masked]
  change (x.toNat.testBit i && _) = _
  by_cases below : i < order
  · simp [below]
  · have reaches : order ≤ i := Nat.not_lt.mp below
    rw [Nat.sub_add_cancel reaches]
    by_cases inside : i < 32
    · simp [below, inside, reaches]
    · have beyond : x.toNat.testBit i = false := BitVec.getLsbD_of_ge x i (by omega)
      simp [beyond]

theorem findMsb_eq {x : BitVec 32} (some : x ≠ 0) : findMsb x = Nat.log2 x.toNat := by
  have nonzero : x.toNat ≠ 0 := fun none => some (BitVec.eq_of_toNat_eq none)
  have loop (bits : Nat) (within : bits ≤ 32) (bound : x.toNat < 2 ^ bits) :
      findMsbLoop x bits = Nat.log2 x.toNat := by
    induction bits with
    | zero => exact absurd (Nat.lt_one_iff.mp bound) nonzero
    | succ i ih =>
      have bit : x &&& 1#32 <<< i = if x.toNat.testBit i then 1#32 <<< i else 0 := by
        rw [← BitVec.twoPow_eq, BitVec.and_twoPow]
        rfl
      have power : (1#32 <<< i).toNat = 2 ^ i := orderToSize_toNat i (Nat.le_of_lt_succ within)
      have one : 1#32 <<< i ≠ 0 := by
        intro none
        rw [none] at power
        exact absurd power.symm (Nat.two_pow_pos i).ne'
      rw [findMsbLoop, bit]
      by_cases high : 2 ^ i ≤ x.toNat
      · have set : x.toNat.testBit i = true := by
          rw [Nat.testBit_eq_decide_div_mod_eq, Nat.div_eq_of_lt_le (k := 1) (by omega) (by omega)]
          rfl
        have top : Nat.log2 x.toNat = i := (Nat.log2_eq_iff nonzero).mpr ⟨high, bound⟩
        rw [set, if_pos rfl, if_pos one, top]
      · have clear : x.toNat.testBit i = false := Nat.testBit_lt_two_pow (Nat.not_le.mp high)
        rw [clear, if_neg Bool.false_ne_true, if_neg (not_not.mpr rfl)]
        exact ih (by omega) (Nat.not_le.mp high)
  exact loop 32 (Nat.le_refl _) x.isLt

end Words

/-- A region of the order from the start on lies before the end, or ends the address space. -/
def Accepts (start stop order : Nat) : Prop :=
  roundUp start (2 ^ order) < 2 ^ 32 ∧
    (roundUp start (2 ^ order) + 2 ^ order ≤ stop ∨ roundUp start (2 ^ order) + 2 ^ order = 2 ^ 32)

instance (start stop order : Nat) : Decidable (Accepts start stop order) := inferInstanceAs (Decidable (_ ∧ _))

/-- The aligned region of the order from the start on. -/
def alignedRegion (start : Nat) (flags : BitVec 32) (order : Nat) : MmRegion :=
  ⟨roundUp start (2 ^ order), 2 ^ order, flags⟩

/-- The largest order that is accepted. -/
def bestOrder (start stop : Nat) : Nat → Option Nat
  | 0 => none
  | order + 1 =>
    if order + 1 < MIN_REGION_ORDER then none
    else if Accepts start stop (order + 1) then some (order + 1)
    else bestOrder start stop order

/-- The orders that the turns find. -/
def ordersFound (start stop : Nat) : Nat → Nat → List Nat
  | 0, _ => []
  | turns + 1, available =>
    match bestOrder start stop (Nat.log2 available) with
    | none => []
    | some order => order :: ordersFound start stop turns (available - 2 ^ order)

section Search
variable {start stop : BitVec 32} {flags : BitVec 32} {order : Nat}

theorem two_pow_dvd_wrap (small : order ≤ maxAddressableMemOrder) : 2 ^ order ∣ 2 ^ 32 :=
  Nat.pow_dvd_pow 2 (Nat.le_succ_of_le small)

theorem regionOfOrder_eq (small : order ≤ maxAddressableMemOrder) :
    regionOfOrder start stop flags order =
      if Accepts start.toNat stop.toNat order then some (alignedRegion start.toNat flags order) else none := by
  have power : (1#32 <<< order).toNat = 2 ^ order := orderToSize_toNat order small
  have positive := Nat.two_pow_pos order
  have low := and_not_mask start small
  have bound := start.isLt
  have stopBound := stop.isLt
  have rest := Nat.mod_lt start.toNat positive
  have below := Nat.mod_le start.toNat (2 ^ order)
  have wraps := two_pow_dvd_wrap small
  have least := roundUp_le positive (Nat.le_of_lt bound) wraps
  have aligned := dvd_roundUp start.toNat positive
  have last (inside : roundUp start.toNat (2 ^ order) < 2 ^ 32) :
      roundUp start.toNat (2 ^ order) + 2 ^ order ≤ 2 ^ 32 := multiples_apart aligned wraps inside
  have first := le_roundUp start.toNat (2 ^ order)
  have finish (regionStart : BitVec 32) (here : regionStart.toNat = roundUp start.toNat (2 ^ order)) :
      (if start ≤ regionStart ∧ regionStart + 1#32 <<< order ≤ stop
        then some (MmRegion.mk regionStart.toNat (1#32 <<< order).toNat flags) else none) =
      if Accepts start.toNat stop.toNat order then some (alignedRegion start.toNat flags order) else none := by
    have inside := last (here ▸ regionStart.isLt)
    have same : start ≤ regionStart ∧ regionStart + 1#32 <<< order ≤ stop ↔
        Accepts start.toNat stop.toNat order := by
      unfold Accepts
      rw [BitVec.le_def, BitVec.le_def, BitVec.toNat_add, power, here]
      omega
    rw [here, power]
    simp only [same]
    rfl
  unfold regionOfOrder
  dsimp only
  by_cases exact : start.toNat % 2 ^ order = 0
  · have stays : ¬start &&& ~~~(1#32 <<< order - 1) < start := by
      rw [BitVec.lt_def, low]
      omega
    rw [if_neg stays]
    refine finish _ ?_
    rw [low, exact, roundUp_of_dvd (Nat.dvd_of_mod_eq_zero exact)]
    rfl
  · have moves : start &&& ~~~(1#32 <<< order - 1) < start := by
      rw [BitVec.lt_def, low]
      omega
    have next := roundUp_of_not_dvd (n := start.toNat) positive (Nat.pos_of_ne_zero exact)
    rw [if_pos moves]
    by_cases inside : roundUp start.toNat (2 ^ order) < 2 ^ 32
    · refine finish _ ?_
      rw [BitVec.toNat_add, low, power]
      omega
    · have none : ¬Accepts start.toNat stop.toNat order := fun accepts => inside accepts.1
      have zero : (start &&& ~~~(1#32 <<< order - 1)) + 1#32 <<< order = 0 := by
        apply BitVec.eq_of_toNat_eq
        rw [BitVec.toNat_add, low, power]
        change _ = 0
        omega
      rw [zero, if_neg none, if_neg]
      rintro ⟨above, -⟩
      rw [BitVec.le_def] at above
      change start.toNat ≤ 0 at above
      omega

theorem searchRegion_eq (small : order ≤ maxAddressableMemOrder) :
    searchRegion start stop flags order =
      (bestOrder start.toNat stop.toNat order).map (alignedRegion start.toNat flags) := by
  induction order with
  | zero => rfl
  | succ order ih =>
    have power : (1#32 <<< (order + 1)).toNat = 2 ^ (order + 1) := orderToSize_toNat _ small
    have least : (1#32 <<< MIN_REGION_ORDER).toNat = 2 ^ MIN_REGION_ORDER := by decide
    have large : 1#32 <<< (order + 1) < 1#32 <<< MIN_REGION_ORDER ↔ order + 1 < MIN_REGION_ORDER := by
      rw [BitVec.lt_def, power, least]
      exact Nat.pow_lt_pow_iff_right (by decide)
    unfold searchRegion bestOrder
    rw [regionOfOrder_eq small]
    by_cases few : order + 1 < MIN_REGION_ORDER
    · rw [if_pos (large.mpr few), if_pos few]
      rfl
    · rw [if_neg (fun less => few (large.mp less)), if_neg few]
      by_cases accepts : Accepts start.toNat stop.toNat (order + 1)
      · rw [if_pos accepts, if_pos accepts]
        rfl
      · rw [if_neg accepts, if_neg accepts]
        exact ih (Nat.le_of_succ_le small)

end Search

section Turns
variable {start stop : Nat}

theorem bestOrder_some {bound order : Nat} (found : bestOrder start stop bound = some order) :
    order ≤ bound ∧ MIN_REGION_ORDER ≤ order ∧ Accepts start stop order := by
  induction bound with
  | zero => cases found
  | succ bound ih =>
    unfold bestOrder at found
    obtain ⟨large, found⟩ := Option.ite_none_left_eq_some.mp found
    split at found
    · rename_i accepts
      obtain rfl := Option.some.inj found
      exact ⟨Nat.le_refl _, Nat.not_lt.mp large, accepts⟩
    · obtain ⟨below, rest⟩ := ih found
      exact ⟨Nat.le_succ_of_le below, rest⟩

theorem log2_lt_32 {available : Nat} (bound : available < 2 ^ 32) : Nat.log2 available ≤ maxAddressableMemOrder := by
  rcases Nat.eq_zero_or_pos available with rfl | positive
  · decide
  · exact Nat.le_of_lt_succ ((Nat.log2_lt positive.ne').mpr bound)

theorem bestOrder_le_available {available order : Nat} (found : bestOrder start stop (Nat.log2 available) = some order) :
    2 ^ order ≤ available := by
  obtain ⟨below, large, -⟩ := bestOrder_some found
  rcases Nat.eq_zero_or_pos available with rfl | positive
  · cases found
  · exact Nat.le_trans (Nat.pow_le_pow_right (by decide) below) (Nat.log2_self_le positive.ne')

/-- The loop adds a region for each order that it finds. -/
theorem mmInitLoop_regions (mmStart mmEnd flags : BitVec 32) (turns : Nat) (available : BitVec 32) (s : Heap) :
    (mmInitLoop mmStart mmEnd flags turns available s).mmRegionList = s.mmRegionList ++
      (ordersFound mmStart.toNat mmEnd.toNat turns available.toNat).map (alignedRegion mmStart.toNat flags) := by
  induction turns generalizing available s with
  | zero => exact (append_nil _).symm
  | succ turns ih =>
    unfold mmInitLoop ordersFound
    by_cases empty : available = 0
    · subst available
      exact (append_nil _).symm
    rw [findMsb_eq empty]
    dsimp only
    rw [searchRegion_eq (log2_lt_32 available.isLt)]
    cases found : bestOrder mmStart.toNat mmEnd.toNat (Nat.log2 available.toNat) with
    | none => exact (append_nil _).symm
    | some order =>
      have small := Nat.le_trans (bestOrder_some found).1 (log2_lt_32 available.isLt)
      have enough := bestOrder_le_available found
      have size : (BitVec.ofNat 32 (2 ^ order)).toNat = 2 ^ order :=
        (BitVec.toNat_ofNat ..).trans (Nat.mod_eq_of_lt (Nat.pow_lt_pow_right (by decide) (Nat.lt_succ_of_le small)))
      have rest : (available - BitVec.ofNat 32 (2 ^ order)).toNat = available.toNat - 2 ^ order := by
        rw [BitVec.toNat_sub_of_le, size]
        rw [BitVec.le_def, size]
        exact enough
      have added : (mmAddRegion s (alignedRegion mmStart.toNat flags order)).2.mmRegionList =
          s.mmRegionList ++ [alignedRegion mmStart.toNat flags order] :=
        (mmAddRegion_of_power (order_of_power order small).1).2.2
      simp only [Option.map_some]
      rw [ih, added, append_assoc]
      change _ ++ ([alignedRegion mmStart.toNat flags order] ++ (ordersFound mmStart.toNat mmEnd.toNat turns
        (available - BitVec.ofNat 32 (2 ^ order)).toNat).map (alignedRegion mmStart.toNat flags)) = _
      rw [rest]
      rfl

end Turns

/-- The regions are disjoint, lie between the bounds, and are aligned powers of two. -/
structure SoundRegions (start stop : Nat) (regions : List MmRegion) : Prop where
  disjoint : regions.Pairwise fun first second => ∀ x, first.start ≤ x → x < first.start + first.size →
    second.start ≤ x → x < second.start + second.size → False
  inside : ∀ region ∈ regions, start ≤ region.start ∧ region.start + region.size ≤ stop
  power : ∀ region ∈ regions, ∃ order, MIN_REGION_ORDER ≤ order ∧ region.size = 2 ^ order
  aligned : ∀ region ∈ regions, region.size ∣ region.start

/-- The bits of a number from `MIN_REGION_ORDER` on and below a bound, from the highest down. -/
def highBits (available : Nat) : Nat → List Nat
  | 0 => []
  | order + 1 =>
    if MIN_REGION_ORDER ≤ order ∧ available.testBit order = true then order :: highBits available order
    else highBits available order

section Bits
variable {start stop available bound : Nat}

theorem mem_highBits {order : Nat} (there : order ∈ highBits available bound) :
    MIN_REGION_ORDER ≤ order ∧ order < bound := by
  induction bound with
  | zero => cases there
  | succ bound ih =>
    unfold highBits at there
    split at there
    · rename_i both
      rcases mem_cons.mp there with rfl | lower
      · exact ⟨both.1, Nat.lt_succ_self _⟩
      · exact ⟨(ih lower).1, Nat.lt_succ_of_lt (ih lower).2⟩
    · exact ⟨(ih there).1, Nat.lt_succ_of_lt (ih there).2⟩

theorem highBits_descending : (highBits available bound).Pairwise fun high low => low < high := by
  induction bound with
  | zero => exact .nil
  | succ bound ih =>
    unfold highBits
    split
    · exact .cons (fun _ there => (mem_highBits there).2) ih
    · exact ih

theorem highBits_congr (other : Nat) (same : ∀ i < bound, available.testBit i = other.testBit i) :
    highBits available bound = highBits other bound := by
  induction bound with
  | zero => rfl
  | succ bound ih =>
    unfold highBits
    rw [same bound (Nat.lt_succ_self _), ih fun i below => same i (Nat.lt_succ_of_lt below)]

theorem highBits_of_lt (larger : Nat) (below : available < 2 ^ bound) (above : bound ≤ larger) :
    highBits available larger = highBits available bound := by
  induction larger with
  | zero =>
    obtain rfl := Nat.le_zero.mp above
    rfl
  | succ larger ih =>
    rcases Nat.lt_or_eq_of_le above with less | rfl
    · have clear : available.testBit larger = false :=
        Nat.testBit_lt_two_pow (Nat.lt_of_lt_of_le below (Nat.pow_le_pow_right (by decide) (Nat.le_of_lt_succ less)))
      rw [highBits, if_neg fun both => Bool.false_ne_true (clear.symm.trans both.2)]
      exact ih (Nat.le_of_lt_succ less)
    · rfl

theorem bestOrder_self {order : Nat} (large : MIN_REGION_ORDER ≤ order) (accepts : Accepts start stop order) :
    bestOrder start stop order = some order := by
  obtain ⟨less, rfl⟩ : ∃ less, order = less + 1 := ⟨order - 1, by unfold MIN_REGION_ORDER PAGE_ORDER at large; omega⟩
  rw [bestOrder, if_neg (Nat.not_lt.mpr large), if_pos accepts]

theorem bestOrder_of_small {order : Nat} (small : order < MIN_REGION_ORDER) : bestOrder start stop order = none := by
  cases order with
  | zero => rfl
  | succ order => exact if_pos small

theorem ordersFound_eq_highBits (turns : Nat) (below : available < 2 ^ bound)
    (accepts : ∀ order < bound, MIN_REGION_ORDER ≤ order → Accepts start stop order) :
    ordersFound start stop turns available = (highBits available bound).take turns := by
  induction bound generalizing turns available with
  | zero =>
    obtain rfl := Nat.lt_one_iff.mp below
    cases turns with
    | zero => rfl
    | succ turns => rfl
  | succ bound ih =>
    by_cases high : 2 ^ bound ≤ available
    · have positive := Nat.two_pow_pos bound
      have top : Nat.log2 available = bound := (Nat.log2_eq_iff (by omega)).mpr ⟨high, below⟩
      have rest : available - 2 ^ bound < 2 ^ bound := by
        rw [Nat.pow_succ] at below
        omega
      have set : available.testBit bound = true := by
        rw [Nat.testBit_eq_decide_div_mod_eq, Nat.div_eq_of_lt_le (k := 1) (by omega) (by omega)]
        rfl
      cases turns with
      | zero => rfl
      | succ turns =>
        unfold ordersFound highBits
        rw [top]
        by_cases large : MIN_REGION_ORDER ≤ bound
        · rw [bestOrder_self large (accepts bound (Nat.lt_succ_self _) large), if_pos ⟨large, set⟩]
          dsimp only
          rw [ih turns rest fun order less => accepts order (Nat.lt_succ_of_lt less), take_succ_cons,
            highBits_congr available fun i less => ?_]
          have whole : available = 2 ^ bound + (available - 2 ^ bound) := by omega
          conv_rhs => rw [whole]
          rw [Nat.testBit_two_pow_add_gt less]
        · have nothing : highBits available bound = [] := by
            rw [eq_nil_iff_forall_not_mem]
            exact fun order there => large (Nat.le_trans (mem_highBits there).1 (Nat.le_of_lt (mem_highBits there).2))
          rw [bestOrder_of_small (Nat.not_le.mp large), if_neg fun both => large both.1, nothing]
          rfl
    · have clear : available.testBit bound = false := Nat.testBit_lt_two_pow (Nat.not_le.mp high)
      rw [highBits, if_neg fun both => Bool.false_ne_true (clear.symm.trans both.2)]
      exact ih turns (Nat.not_le.mp high) fun order less => accepts order (Nat.lt_succ_of_lt less)

end Bits

section Sound
variable {start stop available : Nat} {flags : BitVec 32}

/-- When regions of falling orders are apart and in the given range. -/
theorem soundRegions_iff {orders : List Nat} (large : ∀ order ∈ orders, MIN_REGION_ORDER ≤ order)
    (descending : orders.Pairwise fun high low => low < high) :
    SoundRegions start stop (orders.map (alignedRegion start flags)) ↔
      (∀ order ∈ orders, roundUp start (2 ^ order) + 2 ^ order ≤ stop) ∧
        orders.Pairwise fun high low => 0 < start % 2 ^ high ∧ start % 2 ^ high + 2 ^ low ≤ 2 ^ high := by
  have order_iff {high low : Nat} (less : low < high) :
      roundUp start (2 ^ low) < roundUp start (2 ^ high) ↔
        0 < start % 2 ^ high ∧ start % 2 ^ high + 2 ^ low ≤ 2 ^ high :=
    roundUp_lt_roundUp (Nat.pow_dvd_pow 2 (Nat.le_of_lt less)) (Nat.two_pow_pos high) (Nat.two_pow_pos low)
  constructor
  · rintro ⟨disjoint, inside, -, -⟩
    refine ⟨fun order there => (inside _ (mem_map_of_mem there)).2, ?_⟩
    refine (descending.and (pairwise_map.mp disjoint)).imp fun {high low} ⟨less, apart⟩ => (order_iff less).mp ?_
    have below := roundUp_le_roundUp start (Nat.pow_dvd_pow 2 (Nat.le_of_lt less)) (Nat.two_pow_pos high)
      (Nat.two_pow_pos low)
    refine Nat.lt_of_le_of_ne below fun same => ?_
    have positiveHigh := Nat.two_pow_pos high
    have positiveLow := Nat.two_pow_pos low
    exact apart (roundUp start (2 ^ high)) (Nat.le_refl _) (Nat.lt_add_of_pos_right positiveHigh) (Nat.le_of_eq same)
      (by change _ < roundUp start (2 ^ low) + 2 ^ low; omega)
  · rintro ⟨fits, apart⟩
    refine ⟨pairwise_map.mpr ((descending.and apart).imp fun {high low} both x lower _ _ upper => ?_),
      fun region there => ?_, fun region there => ?_, fun region there => ?_⟩
    · obtain ⟨less, room⟩ := both
      have below := (order_iff less).mpr room
      have last := multiples_apart (dvd_roundUp start (Nat.two_pow_pos low))
        (Nat.dvd_trans (Nat.pow_dvd_pow 2 (Nat.le_of_lt less)) (dvd_roundUp start (Nat.two_pow_pos high))) below
      change roundUp start (2 ^ high) ≤ x at lower
      change x < roundUp start (2 ^ low) + 2 ^ low at upper
      omega
    · obtain ⟨order, inside, rfl⟩ := mem_map.mp there
      exact ⟨le_roundUp .., fits order inside⟩
    · obtain ⟨order, inside, rfl⟩ := mem_map.mp there
      exact ⟨order, large order inside, rfl⟩
    · obtain ⟨order, inside, rfl⟩ := mem_map.mp there
      exact dvd_roundUp start (Nat.two_pow_pos order)

theorem sound_of_few (few : available < 2 ^ (MIN_REGION_ORDER + 1)) (bound : stop < 2 ^ 32) :
    SoundRegions start stop ((ordersFound start stop stm32MmRegions available).map (alignedRegion start flags)) ↔
      ¬(2 ^ MIN_REGION_ORDER ≤ available ∧
        roundUp start (2 ^ MIN_REGION_ORDER) + 2 ^ MIN_REGION_ORDER = 2 ^ 32) := by
  have none : SoundRegions start stop (([] : List Nat).map (alignedRegion start flags)) :=
    ⟨.nil, by simp, by simp, by simp⟩
  have ended (turns rest : Nat) (less : rest < 2 ^ MIN_REGION_ORDER) : ordersFound start stop (turns + 1) rest = [] := by
    have small : Nat.log2 rest < MIN_REGION_ORDER := by
      rcases Nat.eq_zero_or_pos rest with rfl | positive
      · decide
      · exact (Nat.log2_lt positive.ne').mpr less
    rw [ordersFound, bestOrder_of_small small]
  by_cases page : 2 ^ MIN_REGION_ORDER ≤ available
  · have positive := Nat.two_pow_pos MIN_REGION_ORDER
    have top : Nat.log2 available = MIN_REGION_ORDER := (Nat.log2_eq_iff (by omega)).mpr ⟨page, few⟩
    by_cases accepts : Accepts start stop MIN_REGION_ORDER
    · have found : ordersFound start stop stm32MmRegions available = [MIN_REGION_ORDER] := by
        unfold stm32MmRegions
        rw [ordersFound, top, bestOrder_self (Nat.le_refl _) accepts]
        dsimp only
        rw [ended 8 _ (by rw [Nat.pow_succ] at few; omega)]
      rw [found, soundRegions_iff (by simp) (pairwise_singleton ..)]
      simp only [mem_singleton, forall_eq, pairwise_singleton, and_true, page, true_and]
      obtain ⟨-, fits | wraps⟩ := accepts
      · omega
      · omega
    · have found : ordersFound start stop stm32MmRegions available = [] := by
        unfold stm32MmRegions
        have search : bestOrder start stop MIN_REGION_ORDER = Option.none := by
          have least : MIN_REGION_ORDER = 7 + 1 := rfl
          rw [least] at accepts ⊢
          rw [bestOrder, if_neg (by decide), if_neg accepts]
          exact bestOrder_of_small (by decide)
        rw [ordersFound, top, search]
      rw [found]
      refine iff_of_true none fun both => accepts ⟨?_, .inr both.2⟩
      omega
  · unfold stm32MmRegions
    rw [ended 9 _ (Nat.not_le.mp page)]
    exact iff_of_true none fun both => page both.1

theorem not_sound_of_misfit (many : 2 ^ (MIN_REGION_ORDER + 1) ≤ available) (whole : start + available = stop)
    (bound : stop < 2 ^ 32) (misfit : ¬roundUp start (2 ^ Nat.log2 available) + 2 ^ Nat.log2 available ≤ stop) :
    ¬SoundRegions start stop ((ordersFound start stop stm32MmRegions available).map (alignedRegion start flags)) := by
  have positive : available ≠ 0 := by
    have some := Nat.two_pow_pos (MIN_REGION_ORDER + 1)
    omega
  have enough := Nat.log2_self_le positive
  have below := Nat.lt_log2_self (n := available)
  have large : MIN_REGION_ORDER + 1 ≤ Nat.log2 available := (Nat.le_log2 positive).mpr many
  obtain ⟨order, equal⟩ : ∃ order, Nat.log2 available = order + 1 := ⟨Nat.log2 available - 1, by omega⟩
  rw [equal] at enough below large misfit
  unfold stm32MmRegions
  by_cases accepts : Accepts start stop (order + 1)
  · rw [ordersFound, equal, bestOrder_self (Nat.le_of_succ_le large) accepts]
    intro sound
    exact misfit (sound.inside _ mem_cons_self).2
  · have half := Nat.two_pow_pos order
    have next := roundUp_lt start half
    have fits : Accepts start stop order := by
      rw [Nat.pow_succ] at enough
      exact ⟨by omega, .inl (by omega)⟩
    have again : bestOrder start stop (order + 1) = some order := by
      rw [bestOrder, if_neg (by omega), if_neg accepts]
      exact bestOrder_self (Nat.le_of_succ_le_succ large) fits
    have rest : Nat.log2 (available - 2 ^ order) = order ∨ Nat.log2 (available - 2 ^ order) = order + 1 := by
      rw [Nat.log2_eq_iff (by omega), Nat.log2_eq_iff (by omega)]
      simp only [Nat.pow_succ] at enough below ⊢
      omega
    have twice : bestOrder start stop (Nat.log2 (available - 2 ^ order)) = some order := by
      rcases rest with same | same
      · rw [same]
        exact bestOrder_self (Nat.le_of_succ_le_succ large) fits
      · rw [same, again]
    rw [ordersFound, equal, again]
    dsimp only
    rw [ordersFound, twice]
    intro sound
    exact rel_of_pairwise_cons sound.disjoint mem_cons_self (roundUp start (2 ^ order)) (Nat.le_refl _)
      (Nat.lt_add_of_pos_right half) (Nat.le_refl _) (Nat.lt_add_of_pos_right half)

end Sound

/-- The regions that are found at boot are sound exactly when there are less than two pages, whose region does not
end the address space, or when the largest order fits and, of the ten highest bits of the size, the start lies low
enough below the next multiple of each for those that follow. -/
theorem mm_init_regions_sound (flags mmStart mmEnd : BitVec 32) (ordered : mmStart ≤ mmEnd) :
    SoundRegions mmStart.toNat mmEnd.toNat (mmInit flags mmStart mmEnd).mmRegionList ↔
      (mmEnd.toNat - mmStart.toNat < 2 ^ (MIN_REGION_ORDER + 1) ∧
        ¬(2 ^ MIN_REGION_ORDER ≤ mmEnd.toNat - mmStart.toNat ∧
          roundUp mmStart.toNat (2 ^ MIN_REGION_ORDER) + 2 ^ MIN_REGION_ORDER = 2 ^ 32)) ∨
      2 ^ (MIN_REGION_ORDER + 1) ≤ mmEnd.toNat - mmStart.toNat ∧
        roundUp mmStart.toNat (2 ^ Nat.log2 (mmEnd.toNat - mmStart.toNat)) +
          2 ^ Nat.log2 (mmEnd.toNat - mmStart.toNat) ≤ mmEnd.toNat ∧
        ((highBits (mmEnd.toNat - mmStart.toNat) 32).take stm32MmRegions).Pairwise fun high low =>
          0 < mmStart.toNat % 2 ^ high ∧ mmStart.toNat % 2 ^ high + 2 ^ low ≤ 2 ^ high := by
  have stopBound := mmEnd.isLt
  have below : mmStart.toNat ≤ mmEnd.toNat := ordered
  have registered : (mmInit flags mmStart mmEnd).mmRegionList =
      (ordersFound mmStart.toNat mmEnd.toNat stm32MmRegions (mmEnd.toNat - mmStart.toNat)).map
        (alignedRegion mmStart.toNat flags) := by
    unfold mmInit
    rw [mmInitLoop_regions, BitVec.toNat_sub_of_le ordered]
    exact List.nil_append _
  rw [registered]
  generalize available : mmEnd.toNat - mmStart.toNat = size
  by_cases few : size < 2 ^ (MIN_REGION_ORDER + 1)
  · rw [sound_of_few few stopBound]
    constructor
    · exact fun holds => .inl ⟨few, holds⟩
    · rintro (⟨-, holds⟩ | ⟨many, -⟩)
      · exact holds
      · omega
  · have many := Nat.not_lt.mp few
    by_cases fits : roundUp mmStart.toNat (2 ^ Nat.log2 size) + 2 ^ Nat.log2 size ≤ mmEnd.toNat
    · have bits := highBits_of_lt 32 (Nat.lt_log2_self (n := size)) (Nat.succ_le_succ (log2_lt_32 (by omega)))
      have lower (order : Nat) (less : order < Nat.log2 size + 1) :
          roundUp mmStart.toNat (2 ^ order) + 2 ^ order ≤ mmEnd.toNat := by
        have small := Nat.pow_le_pow_right (by decide : 0 < 2) (Nat.le_of_lt_succ less)
        have before := roundUp_le_roundUp mmStart.toNat (Nat.pow_dvd_pow 2 (Nat.le_of_lt_succ less))
          (Nat.two_pow_pos _) (Nat.two_pow_pos order)
        omega
      have found : ordersFound mmStart.toNat mmEnd.toNat stm32MmRegions size =
          (highBits size 32).take stm32MmRegions := by
        rw [bits]
        refine ordersFound_eq_highBits _ Nat.lt_log2_self fun order less _ => ?_
        have inside := lower order less
        have positive := Nat.two_pow_pos order
        exact ⟨by omega, .inl inside⟩
      rw [found, soundRegions_iff]
      · constructor
        · exact fun holds => .inr ⟨many, fits, holds.2⟩
        · rintro (⟨less, -⟩ | ⟨-, -, apart⟩)
          · exact absurd less few
          · refine ⟨fun order there => lower order ?_, apart⟩
            rw [bits] at there
            exact (mem_highBits (List.mem_of_mem_take there)).2
      · exact fun order there => (mem_highBits (List.mem_of_mem_take there)).1
      · exact highBits_descending.sublist (List.take_sublist ..)
    · refine iff_of_false (not_sound_of_misfit many (by omega) stopBound fits) ?_
      rintro (⟨less, -⟩ | ⟨-, holds, -⟩)
      · exact few less
      · exact fits holds

/-- The seven pages from 256 on are three regions that are sound. -/
theorem mm_init_regions_sound_sevenPages :
    SoundRegions 256 2048 (mmInit MM_KERNEL 256 2048).mmRegionList :=
  (mm_init_regions_sound MM_KERNEL 256 2048 (by decide)).mpr (.inr (by decide))

/-- The start never moves, so that the second region from 4096 on lies in the first one. -/
theorem mm_init_regions_overlap :
    (mmInit MM_KERNEL 4096 6912).mmRegionList =
        [⟨4096, 2048, MM_KERNEL⟩, ⟨4096, 512, MM_KERNEL⟩, ⟨4096, 256, MM_KERNEL⟩] ∧
      ¬SoundRegions 4096 6912 (mmInit MM_KERNEL 4096 6912).mmRegionList := by
  have registered : (mmInit MM_KERNEL 4096 6912).mmRegionList =
      [⟨4096, 2048, MM_KERNEL⟩, ⟨4096, 512, MM_KERNEL⟩, ⟨4096, 256, MM_KERNEL⟩] := by rfl
  refine ⟨registered, fun sound => ?_⟩
  have apart := sound.disjoint
  rw [registered] at apart
  exact List.rel_of_pairwise_cons apart List.mem_cons_self 4096 (by decide) (by decide) (by decide) (by decide)

end Phabos.Mm
