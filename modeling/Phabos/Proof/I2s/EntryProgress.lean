import Phabos.Construction.I2s.DataPath

namespace Phabos.I2s
open Library List

/-- The samples of a word, each with its bytes in the other order -/
def reverseSamples (size : ℕ) (w : Word) : Word :=
  le32 ((List.range (4 / size)).flatMap fun sample => (((le32Bytes w).drop (sample * size)).take size).reverse)

/-- What is to become of a word between a buffer and the FIFO -/
def Config.converted (config : Config) (w : Word) : Word :=
  if config.byteOrder = .be then reverseSamples config.bytesPerChannel w else w

theorem reverseSamples_one (w : Word) : reverseSamples 1 w = w := le32_le32Bytes w

theorem reverseSamples_four (w : Word) : reverseSamples 4 w = swap32 w := rfl

theorem tsbI2sFifoData_eq (config : Config) (supported : config.Supported)
    (sound : ¬(config.byteOrder = .be ∧ config.bytesPerChannel = 2)) (w : Word) :
    tsbI2sFifoData config w = config.converted w := by
  unfold tsbI2sFifoData Config.converted
  by_cases big : config.byteOrder = .be
  · have sizes := supported.2
    rw [if_pos big, if_pos big, if_pos big]
    simp only [mem_cons, not_mem_nil, or_false] at sizes
    obtain one | two | four := sizes
    · rw [one]
      exact (reverseSamples_one w).symm
    · exact (sound ⟨big, two⟩).elim
    · rw [four]
      exact (reverseSamples_four w).symm
  · rw [if_neg big, if_neg big]

theorem swapHalf_eq (hw : BitVec 16) : swapHalf hw = 0 := by
  apply BitVec.eq_of_getLsbD_eq
  intro bit small
  simp only [swapHalf, swap32, be32, BitVec.getLsbD_setWidth, BitVec.getLsbD_append, BitVec.getLsbD_ushiftRight]
  grind

theorem tsbI2sFifoData_lost {config : Config} (big : config.byteOrder = .be) (two : config.bytesPerChannel = 2)
    (w : Word) : tsbI2sFifoData config w = 0 := by
  unfold tsbI2sFifoData
  rw [if_pos big, two]
  change swapHalf _ ++ swapHalf _ = (0 : Word)
  rw [swapHalf_eq, swapHalf_eq]
  rfl

open Ara Library

/-- An entry as it may be handed to the driver -/
structure Ready (block : Block) (rb : RingBuf) : Prop where
  drivers : block.isDrivers rb = true
  head : rb.head ≤ rb.tail
  tail : rb.tail ≤ rb.tailroom
  small : rb.tailroom < 2 ^ 32
  whole : block.room rb % 4 = 0

/-- The words in an entry -/
def words (rb : RingBuf) : List Word :=
  (List.range (rb.len / 4)).map fun index => le32 (ByteMemory.read rb.bytes (rb.head + 4 * index) 4)

/-- What an entry that was handed to the driver has become after some words at the FIFO, when the pointer does not yet
count the last `i` bytes. Words that are sent are the first ones of the entry; words that are received are behind one
another in it. -/
def Block.Moved (config : Config) : Block → RingBuf → List Word → RingBuf → ℕ → Prop
  | .so, handed, sent, rb, i =>
    sent <+: (words handed).map config.converted ∧ i ≤ 4 * sent.length ∧
      rb = { handed with head := handed.head + (4 * sent.length - i) }
  | .si, handed, received, rb, i =>
    4 * received.length ≤ handed.space ∧ i ≤ 4 * received.length ∧
      rb = { handed with
        tail := handed.tail + (4 * received.length - i)
        bytes := ByteMemory.write handed.bytes handed.tail ((received.map config.converted).flatMap le32Bytes) }

theorem difference_eq {high low : ℕ} (le : low ≤ high) (small : high < 2 ^ 32) :
    RingBuf.difference high low = high - low := by
  unfold RingBuf.difference
  omega

section Progress
variable {block : Block} {config : Config} {handed rb : RingBuf} {moved : List Word} {i : ℕ}

theorem Ready.len (ready : Ready block handed) : handed.len = handed.tail - handed.head :=
  difference_eq ready.head (Nat.lt_of_le_of_lt ready.tail ready.small)

theorem Ready.space (ready : Ready block handed) : handed.space = handed.tailroom - handed.tail :=
  difference_eq ready.tail ready.small

theorem length_words (rb : RingBuf) : (words rb).length = rb.len / 4 := by
  rw [words, length_map, length_range]

theorem getElem_words (rb : RingBuf) (index : ℕ) (inside : index < (words rb).length) :
    (words rb)[index] = le32 (ByteMemory.read rb.bytes (rb.head + 4 * index) 4) := by
  simp only [words, getElem_map, getElem_range]

theorem Block.isDone_iff (block : Block) (rb : RingBuf) : block.isDone rb = true ↔ block.room rb = 0 := by
  cases block <;> exact decide_eq_true_iff

theorem Block.Moved.start (config : Config) (block : Block) (handed : RingBuf) :
    block.Moved config handed [] handed 0 := by
  cases block with
  | so => exact ⟨List.nil_prefix, Nat.zero_le _, rfl⟩
  | si =>
    refine ⟨Nat.zero_le _, Nat.zero_le _, ?_⟩
    rw [map_nil, flatMap_nil, ByteMemory.write_nil]
    rfl

section
variable (progress : block.Moved config handed moved rb i)
include progress

theorem Block.Moved.isDrivers : block.isDrivers rb = block.isDrivers handed := by
  cases block with
  | so | si =>
    obtain ⟨-, -, rfl⟩ := progress
    rfl

theorem Block.Moved.room (ready : Ready block handed) : block.room rb + 4 * moved.length = block.room handed + i := by
  have tail := ready.tail
  have small := ready.small
  cases block with
  | so =>
    obtain ⟨front, within, rfl⟩ := progress
    have bound := front.length_le
    rw [length_map, length_words] at bound
    have full : handed.len = _ := ready.len
    have head := ready.head
    change RingBuf.difference handed.tail (handed.head + (4 * moved.length - i)) + _ = handed.len + i
    rw [difference_eq (by omega) (by omega)]
    omega
  | si =>
    obtain ⟨bound, within, rfl⟩ := progress
    have full : handed.space = _ := ready.space
    change RingBuf.difference handed.tailroom (handed.tail + (4 * moved.length - i)) + _ = handed.space + i
    rw [difference_eq (by omega) (by omega)]
    omega

theorem Block.Moved.word (ready : Ready block handed) (conversion : ∀ w, tsbI2sFifoData config w = config.converted w)
    (more : i < block.room rb) (fifo : Word) :
    block.Moved config handed (moved ++ [(block.move config rb i fifo).1]) (block.move config rb i fifo).2 (i + 4) := by
  have left := progress.room ready
  have whole := ready.whole
  cases block with
  | so =>
    obtain ⟨front, within, rfl⟩ := progress
    have next : moved.length < (words handed).length := by
      change handed.len % 4 = 0 at whole
      change _ = handed.len + i at left
      rw [length_words]
      omega
    have here : handed.head + (4 * moved.length - i) + i = handed.head + 4 * moved.length := by omega
    refine ⟨?_, ?_, ?_⟩
    · rw [prefix_iff_eq_take.mp front, length_take_of_le front.length_le]
      have inside : moved.length < ((words handed).map config.converted).length := by
        rwa [length_map]
      have same : (Block.so.move config { handed with head := handed.head + (4 * moved.length - i) } i fifo).1 =
          ((words handed).map config.converted)[moved.length] := by
        rw [getElem_map, getElem_words, ← conversion]
        change tsbI2sFifoData config (le32 (ByteMemory.read _ (handed.head + (4 * moved.length - i) + i) 4)) = _
        rw [here]
      rw [same, take_concat_get']
      exact take_prefix _ _
    · rw [length_append, length_singleton]
      omega
    · rw [length_append, length_singleton, Nat.mul_add, Nat.add_sub_add_right]
      rfl
  | si =>
    obtain ⟨bound, within, rfl⟩ := progress
    have here : handed.tail + (4 * moved.length - i) + i =
        handed.tail + ((moved.map config.converted).flatMap le32Bytes).length := by
      rw [length_flatMap_le32Bytes, length_map]
      omega
    refine ⟨?_, ?_, ?_⟩
    · change handed.space % 4 = 0 at whole
      change _ = handed.space + i at left
      rw [length_append, length_singleton]
      omega
    · rw [length_append, length_singleton]
      omega
    · rw [length_append, length_singleton, Nat.mul_add, Nat.add_sub_add_right, map_append,
        flatMap_append, ← ByteMemory.write_append, ← here]
      simp only [Block.move, conversion, map_cons, map_nil, flatMap_cons, flatMap_nil,
        append_nil]

theorem Block.Moved.advance : block.Moved config handed moved (block.advance rb i) 0 := by
  cases block with
  | so =>
    obtain ⟨front, within, rfl⟩ := progress
    refine ⟨front, Nat.zero_le _, ?_⟩
    have here : handed.head + (4 * moved.length - i) + i = handed.head + (4 * moved.length - 0) := by omega
    simp only [Block.advance, RingBuf.pull, here]
  | si =>
    obtain ⟨bound, within, rfl⟩ := progress
    refine ⟨bound, Nat.zero_le _, ?_⟩
    have here : handed.tail + (4 * moved.length - i) + i = handed.tail + (4 * moved.length - 0) := by omega
    simp only [Block.advance, RingBuf.put, here]

end

end Progress

end Phabos.I2s
