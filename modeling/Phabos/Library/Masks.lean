import Mathlib.Algebra.Ring.Nat
import Mathlib.Data.List.Basic

namespace Phabos.Library
open List

section Lanes
variable {α κ : Type*} [DecidableEq κ] {lane : α → κ} {xs front back : List α} {a : α}

/-- The two lists have the same elements in the same order in each lane. -/
def SameLanes (lane : α → κ) (xs ys : List α) : Prop :=
  ∀ k, xs.filter (fun a => lane a = k) = ys.filter fun a => lane a = k

theorem SameLanes.refl (lane : α → κ) (xs : List α) : SameLanes lane xs xs := fun _ => rfl

theorem SameLanes.append_right {ys : List α} (same : SameLanes lane xs ys) (zs : List α) :
    SameLanes lane (xs ++ zs) (ys ++ zs) := by
  intro k
  rw [filter_append, filter_append, same k]

/-- A new last element may overtake the elements of the other lanes. -/
theorem SameLanes.insert (same : SameLanes lane xs (front ++ back))
    (others : ∀ b ∈ back, lane b ≠ lane a) : SameLanes lane (xs ++ [a]) (front ++ a :: back) := by
  intro k
  rw [filter_append, same k, filter_append, filter_append, append_assoc]
  congr 1
  by_cases here : lane a = k
  · have none : back.filter (fun b => lane b = k) = [] := by
      apply filter_eq_nil_iff.mpr
      intro b inside
      have other := others b inside
      rw [here] at other
      simpa using other
    have kept (ys : List α) : (a :: ys).filter (fun b => lane b = k) = a :: ys.filter fun b => lane b = k :=
      filter_cons_of_pos (decide_eq_true here)
    rw [kept, kept, none, filter_nil, nil_append]
  · have dropped (ys : List α) : (a :: ys).filter (fun b => lane b = k) = ys.filter fun b => lane b = k :=
      filter_cons_of_neg (by rwa [decide_eq_true_iff])
    rw [dropped, dropped, filter_nil, append_nil]

end Lanes

section Masks
variable {w : ℕ}

/-- The union of some masks -/
def union (masks : List (BitVec w)) : BitVec w := masks.foldr (· ||| ·) 0

theorem getLsbD_union (masks : List (BitVec w)) (bit : ℕ) :
    (union masks).getLsbD bit = true ↔ ∃ mask ∈ masks, mask.getLsbD bit = true := by
  induction masks with
  | nil => simp [union]
  | cons mask rest ih =>
    have tail : (rest.foldr (· ||| ·) 0).getLsbD bit = true ↔ _ := ih
    rw [union, foldr_cons, BitVec.getLsbD_or, Bool.or_eq_true, tail]
    simp only [mem_cons, exists_eq_or_imp]

theorem union_append (masks : List (BitVec w)) (mask : BitVec w) :
    union (masks ++ [mask]) = union masks ||| mask := by
  induction masks with
  | nil => simp [union]
  | cons first rest ih =>
    change first ||| union (rest ++ [mask]) = first ||| union rest ||| mask
    rw [ih, BitVec.or_assoc]

/-- Two masks are disjoint when no bit is in both. -/
theorem and_eq_zero_iff {one two : BitVec w} :
    one &&& two = 0 ↔ ∀ bit, one.getLsbD bit = true → ¬two.getLsbD bit = true := by
  constructor
  · intro zero bit first second
    have both := congrArg (fun mask => mask.getLsbD bit) zero
    simp only [BitVec.getLsbD_and, first, second] at both
    simp at both
  · intro apart
    apply BitVec.eq_of_getLsbD_eq
    intro bit _
    rw [BitVec.getLsbD_and]
    cases first : one.getLsbD bit with
    | true => simp [Bool.eq_false_iff.mpr (apart bit first)]
    | false => simp

/-- A mask is inside another one when no bit is outside it. -/
theorem and_not_eq_zero_iff {inner outer : BitVec w} :
    inner &&& ~~~outer = 0 ↔ ∀ bit, inner.getLsbD bit = true → outer.getLsbD bit = true := by
  rw [and_eq_zero_iff]
  refine forall_congr' fun bit => imp_congr_right fun inside => ?_
  rw [BitVec.getLsbD_not, decide_eq_true (BitVec.lt_of_getLsbD inside)]
  simp

/-- A mask is disjoint from a union when it is disjoint from each part. -/
theorem union_and_eq_zero_iff {masks : List (BitVec w)} {mask : BitVec w} :
    union masks &&& mask = 0 ↔ ∀ part ∈ masks, part &&& mask = 0 := by
  simp only [and_eq_zero_iff, getLsbD_union]
  constructor
  · intro apart part there bit inside
    exact apart bit ⟨part, there, inside⟩
  · rintro apart bit ⟨part, there, inside⟩
    exact apart part there bit inside

/-- The bits of a mask are cleared and others are set. -/
theorem getLsbD_replaced (reg mask value : BitVec w) (bit : ℕ) :
    (reg &&& ~~~mask ||| value).getLsbD bit = (reg.getLsbD bit && !mask.getLsbD bit || value.getLsbD bit) := by
  rw [BitVec.getLsbD_or, BitVec.getLsbD_and, BitVec.getLsbD_not]
  by_cases inside : bit < w
  · simp [inside]
  · simp [BitVec.getLsbD_of_ge reg bit (Nat.le_of_not_lt inside)]

/-- The bits of a mask of low bits -/
theorem getLsbD_low (width bit : ℕ) :
    (BitVec.ofNat w (2 ^ width - 1)).getLsbD bit = (decide (bit < w) && decide (bit < width)) := by
  rw [BitVec.getLsbD_ofNat, Nat.testBit_two_pow_sub_one]

end Masks

end Phabos.Library
