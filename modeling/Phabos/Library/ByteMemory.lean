import Mathlib.Data.UInt

namespace Phabos.Library

/-- These bytes store a 16-bit value, the high byte first. -/
def be16Bytes (value : BitVec 16) : List (BitVec 8) := [(value >>> 8).setWidth 8, value.setWidth 8]

/-- These bytes store a 32-bit value, the high byte first. -/
def be32Bytes (value : BitVec 32) : List (BitVec 8) :=
  [(value >>> 24).setWidth 8, (value >>> 16).setWidth 8, (value >>> 8).setWidth 8, value.setWidth 8]

/-- This is the value in two bytes. -/
def be16 (high low : BitVec 8) : BitVec 16 := high ++ low

/-- This is the value in four bytes. -/
def be32 (byte3 byte2 byte1 byte0 : BitVec 8) : BitVec 32 := byte3 ++ byte2 ++ byte1 ++ byte0

@[simp] theorem be16_bytes (value : BitVec 16) : be16 ((value >>> 8).setWidth 8) (value.setWidth 8) = value := by
  apply BitVec.eq_of_getLsbD_eq
  intro index inRange
  simp only [be16, BitVec.getLsbD_append, BitVec.getLsbD_setWidth, BitVec.getLsbD_ushiftRight]
  grind

@[simp] theorem be32_bytes (value : BitVec 32) :
    be32 ((value >>> 24).setWidth 8) ((value >>> 16).setWidth 8) ((value >>> 8).setWidth 8) (value.setWidth 8) =
      value := by
  apply BitVec.eq_of_getLsbD_eq
  intro index inRange
  simp only [be32, BitVec.getLsbD_append, BitVec.getLsbD_setWidth, BitVec.getLsbD_ushiftRight]
  grind

/-- These bytes store a number modulo two to the sixteen, the low byte first. -/
def le16Bytes (value : Nat) : List UInt8 := [UInt8.ofNat value, UInt8.ofNat (value / 256)]

/-- This is the number in the two bytes at an offset. -/
def le16 (data : List UInt8) (offset : Nat) : Nat :=
  (data.getD offset 0).toNat + 256 * (data.getD (offset + 1) 0).toNat

@[simp] theorem length_le16Bytes (value : Nat) : (le16Bytes value).length = 2 := rfl

/-- A stored number is read back modulo two to the sixteen. -/
theorem le16_le16Bytes (before after : List UInt8) (value : Nat) :
    le16 (before ++ le16Bytes value ++ after) before.length = value % 65536 := by
  have first : (before ++ le16Bytes value ++ after).getD before.length 0 = UInt8.ofNat value := by
    simp [le16Bytes]
  have second : (before ++ le16Bytes value ++ after).getD (before.length + 1) 0 =
      UInt8.ofNat (value / 256) := by
    simp [le16Bytes]
  unfold le16
  rw [first, second, UInt8.toNat_ofNat', UInt8.toNat_ofNat']
  omega

/-- These bytes store a 32-bit value, the low byte first. -/
def le32Bytes (value : BitVec 32) : List UInt8 :=
  [⟨value.setWidth 8⟩, ⟨(value >>> 8).setWidth 8⟩, ⟨(value >>> 16).setWidth 8⟩, ⟨(value >>> 24).setWidth 8⟩]

/-- This is the value in four bytes. -/
def le32 : List UInt8 → BitVec 32
  | [byte0, byte1, byte2, byte3] => be32 byte3.toBitVec byte2.toBitVec byte1.toBitVec byte0.toBitVec
  | _ => 0

@[simp] theorem length_le32Bytes (value : BitVec 32) : (le32Bytes value).length = 4 := rfl

theorem length_flatMap_le32Bytes (values : List (BitVec 32)) :
    (values.flatMap le32Bytes).length = 4 * values.length := by
  induction values with
  | nil => rfl
  | cons value rest ih =>
    rw [List.flatMap_cons, List.length_append, ih, length_le32Bytes, List.length_cons]
    omega

theorem le32_le32Bytes (value : BitVec 32) : le32 (le32Bytes value) = value := be32_bytes value

end Phabos.Library

namespace Phabos.Library.ByteMemory

/-- A memory gives the byte at each address. -/
abbrev Memory := Nat → UInt8

/-- The bytes of a list replace those from an address on. -/
def write (memory : Memory) (start : Nat) (bytes : List UInt8) : Memory := fun address =>
  if start ≤ address then (bytes[address - start]?).getD (memory address) else memory address

/-- The bytes from an address on. -/
def read (memory : Memory) (start length : Nat) : List UInt8 :=
  (List.range length).map fun position => memory (start + position)

variable {memory : Memory} {start : Nat} {bytes : List UInt8}

theorem length_read (memory : Memory) (start length : Nat) : (read memory start length).length = length := by
  simp [read]

/-- A read is the read of its front and the one of the rest. -/
theorem read_add (memory : Memory) (start first second : Nat) :
    read memory start (first + second) = read memory start first ++ read memory (start + first) second := by
  unfold read
  rw [List.range_add, List.map_append, List.map_map]
  refine congrArg (List.append _) (List.map_congr_left fun position _ => ?_)
  rw [Function.comp_apply, Nat.add_assoc]

/-- Memories that agree on some addresses read the same there. -/
theorem read_congr {other : Memory} {start length : Nat}
    (same : ∀ address, start ≤ address → address < start + length → memory address = other address) :
    read memory start length = read other start length := by
  unfold read
  refine List.map_congr_left fun position there => ?_
  have bound := List.mem_range.mp there
  exact same _ (by omega) (by omega)

/-- A write leaves the other addresses alone. -/
theorem write_outside {address : Nat} (outside : address < start ∨ start + bytes.length ≤ address) :
    write memory start bytes address = memory address := by
  unfold write
  split
  · rw [List.getElem?_eq_none (by omega), Option.getD_none]
  · rfl

@[simp] theorem write_nil (memory : Memory) (start : Nat) : write memory start [] = memory := by
  funext address
  exact write_outside (by rw [List.length_nil]; omega)

/-- Two writes one behind the other are one. -/
theorem write_append (memory : Memory) (start : Nat) (first second : List UInt8) :
    write (write memory start first) (start + first.length) second = write memory start (first ++ second) := by
  funext address
  unfold write
  by_cases low : start ≤ address
  · rw [if_pos low, if_pos low]
    by_cases high : start + first.length ≤ address
    · rw [if_pos high, List.getElem?_append_right (by omega), List.getElem?_eq_none (l := first) (by omega)]
      rw [Option.getD_none, Nat.sub_add_eq]
    · rw [if_neg high, List.getElem?_append_left (by omega)]
  · rw [if_neg low, if_neg low, if_neg (by omega)]

/-- What was written is read. -/
theorem read_write_self : read (write memory start bytes) start bytes.length = bytes := by
  unfold read write
  apply List.ext_getElem
  · simp
  · intro position low high
    simp [high]

/-- A read of other addresses does not see a write. -/
theorem read_write_outside {other length : Nat} (outside : other + length ≤ start ∨ start + bytes.length ≤ other) :
    read (write memory start bytes) other length = read memory other length := by
  unfold read
  apply List.map_congr_left
  intro position bound
  have inside := List.mem_range.mp bound
  exact write_outside (by omega)

end Phabos.Library.ByteMemory
