import Phabos.Construction.Fs.Ramfs

namespace Phabos.Binfs
open Library

/-- The bytes of an image that a read of some bytes at an offset has to give -/
def Bin.expected (b : Bin) (offset : Int) (count : ℕ) : List UInt8 :=
  if 0 ≤ offset ∧ offset < b.size.toNat then
    (List.range (min count (b.size.toNat - offset.toNat))).map fun i =>
      b.memory (b.bin + BitVec.ofNat 32 (offset.toNat + i))
  else []

/-- A read gives the bytes of the image from the offset on and moves the offset behind them, and a map gives a pointer
for the ranges inside the image only. -/
def Right (b : Bin) (offset : BitVec 32) : Call → Prop
  | .sysLseek _ _ => True
  | .sysRead count =>
    let (result, copied, next) := sysRead b offset count
    copied = b.expected offset.toInt count.toNat ∧ result = copied.length ∧ next = offset + BitVec.ofInt 32 result
  | .sysMmap length moved =>
    sysMmap b length moved =
      if 0 < length.toNat ∧ 0 ≤ moved.toInt ∧ moved.toInt + length.toNat ≤ b.size.toNat then some (b.bin + moved)
      else none

/-- A read finds no byte at a negative offset, and no more than an `ssize_t` can count elsewhere. A map begins behind
the image, or its end neither wraps around nor is the end of the image, and is behind it for a negative offset. -/
def Agrees (b : Bin) (offset : BitVec 32) : Call → Prop
  | .sysLseek _ _ => True
  | .sysRead count => count = 0 ∨ b.size ≤ offset ∨
      0 ≤ offset.toInt ∧ min count.toNat (b.size.toNat - offset.toNat) < 2 ^ 31
  | .sysMmap length moved => length = 0 ∨ b.size ≤ moved ∨
      moved.toNat + length.toNat < 2 ^ 32 ∧
        if 0 ≤ moved.toInt then moved.toNat + length.toNat ≠ b.size.toNat
        else b.size.toNat ≤ moved.toNat + length.toNat

section Calls
variable (b : Bin) (offset : BitVec 32)

theorem toInt_cases : offset.toNat < 2 ^ 31 ∧ offset.toInt = offset.toNat ∨
    2 ^ 31 ≤ offset.toNat ∧ offset.toInt = offset.toNat - 2 ^ 32 := by
  rw [BitVec.toInt_eq_toNat_cond]
  have bound := offset.isLt
  split
  · exact .inl ⟨by omega, rfl⟩
  · exact .inr ⟨by omega, by omega⟩

theorem pointer_eq_iff {refused accepted : Prop} [Decidable refused] [Decidable accepted] (pointer : BitVec 32) :
    ((if refused then none else some pointer) = if accepted then some pointer else none) ↔ (¬ refused ↔ accepted) := by
  by_cases one : refused
  · by_cases two : accepted
    · simp [one, two]
    · simp [one, two]
  · by_cases two : accepted
    · simp [one, two]
    · simp [one, two]

theorem sysMmap_right_iff (length : BitVec 32) (moved : BitVec 32) :
    Right b offset (.sysMmap length moved) ↔ Agrees b offset (.sysMmap length moved) := by
  unfold Right Agrees sysMmap binfsMmap
  dsimp only
  by_cases zero : length = 0
  · rw [if_pos zero, if_neg]
    · exact iff_of_true rfl (.inl zero)
    · rw [zero]
      exact fun some => absurd some.1 (by decide)
  · have positive : 0 < length.toNat := by
      rw [Nat.pos_iff_ne_zero, ne_eq, ← BitVec.toNat_zero, BitVec.toNat_inj]
      exact zero
    have small := b.size.isLt
    have lengthSmall := length.isLt
    rw [if_neg zero, pointer_eq_iff, or_iff_right zero, ge_iff_le, ge_iff_le, BitVec.le_def, BitVec.le_def,
      BitVec.toNat_add]
    rcases toInt_cases moved with ⟨low, value⟩ | ⟨high, value⟩
    · rw [value, if_pos (Int.natCast_nonneg _)]
      omega
    · have bound := moved.isLt
      rw [value, if_neg (by omega)]
      omega

theorem length_bytes (nread : BitVec 32) : (b.bytes offset nread).length = nread.toNat := by
  unfold Bin.bytes
  rw [List.length_map, List.length_range]

theorem bytes_eq_expected {count nread : BitVec 32} (inside : offset.toNat < b.size.toNat)
    (value : offset.toInt = offset.toNat) (length : nread.toNat = min count.toNat (b.size.toNat - offset.toNat)) :
    b.bytes offset nread = b.expected offset.toInt count.toNat := by
  unfold Bin.bytes Bin.expected
  rw [value, if_pos ⟨Int.natCast_nonneg _, Int.ofNat_lt.mpr inside⟩, Int.toNat_natCast, length]
  refine List.map_congr_left fun i _ => ?_
  rw [BitVec.ofNat_add, BitVec.ofNat_toNat, BitVec.setWidth_eq, BitVec.add_assoc]

theorem expected_outside {value : Int} (count : ℕ) (outside : value < 0 ∨ b.size.toNat ≤ value) :
    b.expected value count = [] := by
  unfold Bin.expected
  exact if_neg fun inside => by omega

theorem expected_zero (value : Int) : b.expected value 0 = [] := by
  unfold Bin.expected
  rw [Nat.zero_min]
  exact ite_self []

theorem sysRead_right_iff (count : BitVec 32) : Right b offset (.sysRead count) ↔ Agrees b offset (.sysRead count) := by
  unfold Right Agrees sysRead binfsRead
  dsimp only
  have stays : offset = offset + BitVec.ofInt 32 0 := (BitVec.add_zero offset).symm
  by_cases zero : count = 0
  · rw [if_pos zero, zero]
    exact iff_of_true ⟨(expected_zero b offset.toInt).symm, rfl, stays⟩ (.inl rfl)
  rw [if_neg zero, or_iff_right zero]
  have positive : 0 < count.toNat := by
    rw [Nat.pos_iff_ne_zero, ne_eq, ← BitVec.toNat_zero, BitVec.toNat_inj]
    exact zero
  by_cases beyond : b.size ≤ offset
  · rw [if_pos beyond]
    have outside : offset.toInt < 0 ∨ (b.size.toNat : Int) ≤ offset.toInt := by
      rw [BitVec.le_def] at beyond
      rcases toInt_cases offset with ⟨low, value⟩ | ⟨high, value⟩
      · rw [value]
        exact .inr (Int.ofNat_le.mpr beyond)
      · have bound := offset.isLt
        omega
    exact iff_of_true ⟨(expected_outside b _ outside).symm, rfl, stays⟩ (.inl beyond)
  · rw [if_neg beyond, or_iff_right beyond]
    rw [BitVec.le_def, Nat.not_le] at beyond
    have left : (b.size - offset).toNat = b.size.toNat - offset.toNat := BitVec.toNat_sub_of_le (Nat.le_of_lt beyond)
    have length : (if count < b.size - offset then count else b.size - offset).toNat =
        min count.toNat (b.size.toNat - offset.toNat) := by
      rw [← left]
      split
      · rename_i less
        rw [BitVec.lt_def] at less
        omega
      · rename_i less
        rw [BitVec.lt_def] at less
        omega
    generalize (if count < b.size - offset then count else b.size - offset) = nread at length ⊢
    rw [length_bytes, BitVec.ofInt_toInt, ← length]
    rcases toInt_cases offset with ⟨low, value⟩ | ⟨high, value⟩
    · have bytes := bytes_eq_expected b offset beyond value length
      rcases toInt_cases nread with ⟨small, same⟩ | ⟨large, same⟩
      · exact iff_of_true ⟨bytes, same, rfl⟩ ⟨by omega, small⟩
      · exact iff_of_false (fun right => by omega) fun agrees => by omega
    · have bound := offset.isLt
      refine iff_of_false (fun right => ?_) fun agrees => by omega
      have none := congrArg List.length right.1
      rw [length_bytes, expected_outside b _ (.inl (by omega)), List.length_nil] at none
      omega

/-- A call is right exactly when it agrees with the image. -/
theorem right_iff (call : Call) : Right b offset call ↔ Agrees b offset call := by
  cases call with
  | sysLseek moved whence => exact Iff.rfl
  | sysRead count => exact sysRead_right_iff b offset count
  | sysMmap length moved => exact sysMmap_right_iff b offset length moved

theorem sysRead_agrees_small (small : b.size.toNat < 2 ^ 31) (count : BitVec 32) : Agrees b offset (.sysRead count) := by
  rcases toInt_cases offset with ⟨low, value⟩ | ⟨high, -⟩
  · exact .inr (.inr ⟨by omega, by omega⟩)
  · refine .inr (.inl ?_)
    rw [BitVec.le_def]
    omega

end Calls

/-- In every run of seeks, reads and maps on an open image, all reads and maps are right if and only if each of them
agrees. Those on a smaller image than two to the thirty-one bytes without a map always do. -/
theorem binfs_bounds (b : Bin) (calls : List Call) :
    (Guarded (step b) (Right b) 0 calls ↔ Guarded (step b) (Agrees b) 0 calls) ∧
      (b.size.toNat < 2 ^ 31 → (∀ length moved, .sysMmap length moved ∉ calls) → Guarded (step b) (Right b) 0 calls) := by
  refine ⟨⟨fun right => ?_, fun agrees => ?_⟩, fun small unmapped => .of_forall fun call there offset => ?_⟩
  · exact right.imp (fun _ => True) (fun offset call _ here => ⟨(right_iff b offset call).mp here, fun _ _ => trivial⟩)
      trivial
  · exact agrees.imp (fun _ => True) (fun offset call _ here => ⟨(right_iff b offset call).mpr here, fun _ _ => trivial⟩)
      trivial
  · refine (right_iff b offset call).mpr ?_
    cases call with
    | sysLseek moved whence => trivial
    | sysRead count => exact sysRead_agrees_small b offset small count
    | sysMmap length moved => exact absurd there (unmapped length moved)

/-- A map of a whole image is refused, and one whose end wraps around is not. -/
theorem binfs_map_to_end : ∃ b : Bin, b.size = 16 ∧ ¬ Guarded (step b) (Right b) 0 [.sysMmap 16 0] ∧
    sysMmap b 16 0 = none ∧ sysMmap b 0xffffffff 1 = some (b.bin + 1) :=
  ⟨⟨0x8000000, 16, fun _ => 0⟩, rfl, fun guarded => absurd guarded.1 (by unfold Right; decide), by decide, by decide⟩

end Phabos.Binfs
