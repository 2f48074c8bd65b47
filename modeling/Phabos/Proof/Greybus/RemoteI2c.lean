import Phabos.Construction.Greybus.I2c

namespace Phabos.I2c
open List

open Library List

theorem le16At_received (before after : List UInt8) (value : Nat) (stale : Nat → UInt8) :
    le16At (received (before ++ le16Bytes value ++ after) stale) before.length = value % 65536 := by
  have inside : before.length + 1 < (before ++ le16Bytes value ++ after).length := by
    rw [length_append, length_append, length_le16Bytes]
    omega
  have same : ∀ offset < (before ++ le16Bytes value ++ after).length,
      received (before ++ le16Bytes value ++ after) stale offset =
        (before ++ le16Bytes value ++ after).getD offset 0 := by
    intro offset within
    unfold received
    rw [getD_eq_getElem?_getD, getD_eq_getElem?_getD, getElem?_eq_getElem within]
    rfl
  unfold le16At
  rw [same _ (by omega), same _ inside, ← le16_le16Bytes before after value]
  rfl

theorem length_transferDesc (msg : I2cMsg) : (transferDesc msg).length = 6 := rfl

theorem replicate_split (desc : List UInt8) {i count : Nat} (within : i < count) :
    (replicate count desc).flatten =
      (replicate i desc).flatten ++ desc ++ (replicate (count - i - 1) desc).flatten := by
  have sum : count = i + 1 + (count - i - 1) := by omega
  conv_lhs => rw [sum]
  rw [replicate_add, replicate_add, flatten_append, flatten_append]
  simp

section Request
variable (msg : I2cMsg) (rest : List I2cMsg) (stale : Nat → UInt8)

theorem request_count : le16At (received (transferRequest (msg :: rest)) stale) 0 = (rest.length + 1) % 65536 :=
  le16At_received [] _ _ stale

theorem request_fields {i : Nat} (within : i < rest.length + 1) :
    le16At (received (transferRequest (msg :: rest)) stale) (2 + 6 * i) = msg.addr.toNat % 65536 ∧
      le16At (received (transferRequest (msg :: rest)) stale) (2 + 6 * i + 2) = msg.flags.toNat % 65536 ∧
      le16At (received (transferRequest (msg :: rest)) stale) (2 + 6 * i + 4) = msg.buffer.length % 65536 := by
  let front := le16Bytes (rest.length + 1) ++ (replicate i (transferDesc msg)).flatten
  let back := (replicate (rest.length + 1 - i - 1) (transferDesc msg)).flatten
  have front_length : front.length = 2 + 6 * i := by
    simp [front, length_transferDesc, Nat.mul_comm]
  have request : transferRequest (msg :: rest) = front ++ transferDesc msg ++ back := by
    simp only [transferRequest]
    rw [replicate_split _ within, ← append_assoc, ← append_assoc]
  refine ⟨?_, ?_, ?_⟩
  · have split : transferRequest (msg :: rest) = front ++ le16Bytes msg.addr.toNat ++
        (le16Bytes msg.flags.toNat ++ le16Bytes msg.buffer.length ++ back) := by
      rw [request]
      simp [transferDesc]
    rw [split, ← front_length]
    exact le16At_received ..
  · have split : transferRequest (msg :: rest) = (front ++ le16Bytes msg.addr.toNat) ++ le16Bytes msg.flags.toNat ++
        (le16Bytes msg.buffer.length ++ back) := by
      rw [request]
      simp [transferDesc]
    have length : (front ++ le16Bytes msg.addr.toNat).length = 2 + 6 * i + 2 := by
      rw [length_append, front_length, length_le16Bytes]
    rw [split, ← length]
    exact le16At_received ..
  · have split : transferRequest (msg :: rest) =
        (front ++ le16Bytes msg.addr.toNat ++ le16Bytes msg.flags.toNat) ++ le16Bytes msg.buffer.length ++ back := by
      rw [request]
      simp [transferDesc]
    have length : (front ++ le16Bytes msg.addr.toNat ++ le16Bytes msg.flags.toNat).length = 2 + 6 * i + 4 := by
      rw [length_append, length_append, front_length, length_le16Bytes, length_le16Bytes]
    rw [split, ← length]
    exact le16At_received ..

end Request

theorem readOp_eq (msg : I2cMsg) :
    decide (BitVec.ofNat 32 (msg.flags.toNat % 65536) &&& i2cMRead ≠ 0) = msg.read := by
  have same : BitVec.ofNat 32 (msg.flags.toNat % 65536) &&& i2cMRead = msg.flags &&& i2cMRead := by
    apply BitVec.eq_of_toNat_eq
    simp only [BitVec.toNat_and, BitVec.toNat_ofNat, i2cMRead]
    change _ &&& 1 = _ &&& 1
    rw [Nat.and_one_is_mod, Nat.and_one_is_mod]
    omega
  rw [same]
  rfl

/-- The message that the module builds from a copy of a descriptor -/
def rebuilt (msg : I2cMsg) (memory : Nat → UInt8) (writeData : Nat) : I2cMsg :=
  if msg.read then ⟨msg.addr, i2cMRead, replicate msg.buffer.length 0⟩
  else ⟨msg.addr, 0, (range msg.buffer.length).map fun offset => memory (writeData + offset)⟩

section
variable (msg : I2cMsg) (memory : Nat → UInt8) (writeData : Nat)

theorem rebuilt_read : (rebuilt msg memory writeData).read = msg.read := by
  unfold rebuilt
  cases reads : msg.read with
  | true =>
    rw [if_pos rfl]
    show decide (i2cMRead &&& i2cMRead ≠ 0) = true
    decide
  | false =>
    rw [if_neg Bool.false_ne_true]
    show decide ((0 : BitVec 32) &&& i2cMRead ≠ 0) = false
    decide

theorem rebuilt_length : (rebuilt msg memory writeData).buffer.length = msg.buffer.length := by
  unfold rebuilt
  split
  · exact length_replicate
  · rw [length_map, length_range]

theorem rebuilt_addr : (rebuilt msg memory writeData).addr = msg.addr := by
  unfold rebuilt
  split <;> rfl

end

/-- From copies of one descriptor the module builds its message again and again, with the next write data each
time. -/
theorem buildMsgs_cons {msg : I2cMsg} {memory : Nat → UInt8} {i : Nat} {rest : List Nat} {writeData : Nat}
    (addr : le16At memory (2 + 6 * i) = msg.addr.toNat % 65536)
    (flags : le16At memory (2 + 6 * i + 2) = msg.flags.toNat % 65536)
    (size : le16At memory (2 + 6 * i + 4) = msg.buffer.length) :
    buildMsgs memory (i :: rest) writeData = rebuilt msg memory writeData ::
      buildMsgs memory rest (if msg.read then writeData else writeData + msg.buffer.length) := by
  have address : BitVec.ofNat 16 (msg.addr.toNat % 65536) = msg.addr := by
    apply BitVec.eq_of_toNat_eq
    have bound := msg.addr.isLt
    rw [BitVec.toNat_ofNat]
    omega
  have readOp := readOp_eq msg
  simp only [buildMsgs, addr, flags, size, address]
  unfold rebuilt
  cases reads : msg.read with
  | true =>
    rw [reads] at readOp
    rw [if_pos (of_decide_eq_true readOp), if_pos rfl, if_pos rfl]
  | false =>
    rw [reads] at readOp
    rw [if_neg (of_decide_eq_false readOp), if_neg Bool.false_ne_true, if_neg Bool.false_ne_true]

theorem length_buildMsgs (memory : Nat → UInt8) (indices : List Nat) (writeData : Nat) :
    (buildMsgs memory indices writeData).length = indices.length := by
  induction indices generalizing writeData with
  | nil => rfl
  | cons i rest ih =>
    simp only [buildMsgs]
    split
    · rw [length_cons, length_cons, ih]
    · rw [length_cons, length_cons, ih]

/-- A message of the module is like the caller's if they have the same address, direction and length. -/
structure Alike (msg built : I2cMsg) : Prop where
  addr : built.addr = msg.addr
  read : built.read = msg.read
  length : built.buffer.length = msg.buffer.length

theorem buildMsgs_alike {msg : I2cMsg} {memory : Nat → UInt8} {indices : List Nat}
    (fields : ∀ i ∈ indices, le16At memory (2 + 6 * i) = msg.addr.toNat % 65536 ∧
      le16At memory (2 + 6 * i + 2) = msg.flags.toNat % 65536 ∧
      le16At memory (2 + 6 * i + 4) = msg.buffer.length) (writeData : Nat) :
    ∀ built ∈ buildMsgs memory indices writeData, Alike msg built := by
  induction indices generalizing writeData with
  | nil =>
    intro built mem
    cases mem
  | cons i rest ih =>
    intro built mem
    obtain ⟨addr, flags, size⟩ := fields i mem_cons_self
    rw [buildMsgs_cons addr flags size] at mem
    cases mem with
    | head => exact ⟨rebuilt_addr .., rebuilt_read .., rebuilt_length ..⟩
    | tail _ later => exact ih (fun j later => fields j (mem_cons_of_mem i later)) _ built later

/-- The messages that the module builds from the request of a caller -/
def builtFor (msgs : List I2cMsg) (stale : Nat → UInt8) : List I2cMsg :=
  buildMsgs (received (transferRequest msgs) stale) (range msgs.length) (2 + 6 * msgs.length)

section Built
variable {msg : I2cMsg} {rest : List I2cMsg} (stale : Nat → UInt8)

theorem length_builtFor (msgs : List I2cMsg) : (builtFor msgs stale).length = msgs.length := by
  rw [builtFor, length_buildMsgs, length_range]

theorem builtFor_alike (short : msg.buffer.length < 65536) :
    ∀ built ∈ builtFor (msg :: rest) stale, Alike msg built := by
  apply buildMsgs_alike
  intro i mem
  obtain ⟨addr, flags, size⟩ := request_fields msg rest stale (mem_range.mp mem)
  rw [Nat.mod_eq_of_lt short] at size
  exact ⟨addr, flags, size⟩

theorem builtFor_head (short : msg.buffer.length < 65536) :
    (builtFor (msg :: rest) stale).head? =
      some (rebuilt msg (received (transferRequest (msg :: rest)) stale) (2 + 6 * (rest.length + 1))) := by
  obtain ⟨addr, flags, size⟩ := request_fields msg rest stale (Nat.succ_pos rest.length)
  rw [Nat.mod_eq_of_lt short] at size
  rw [builtFor, length_cons, range_succ_eq_map, buildMsgs_cons addr flags size]
  rfl

end Built

theorem transferResult_ne_success (ret : Int) : transferResult ret ≠ gbOpSuccess ↔ ret ≠ 0 := by
  unfold transferResult
  split
  case isTrue nonexistent =>
    rw [nonexistent]
    decide
  case isFalse =>
    split
    case isTrue failed => exact ⟨fun _ => failed, fun _ => by decide⟩
    case isFalse success => exact ⟨fun failed => absurd rfl failed, fun failed => absurd failed success⟩

theorem gbI2cTransfer_cons (bus : Bus) (stale : Nat → UInt8) (msg : I2cMsg) (rest : List I2cMsg)
    (few : rest.length + 1 < 65536) :
    gbI2cTransfer bus stale (msg :: rest) =
      (if transferResult (i2cTransfer bus (builtFor (msg :: rest) stale)).1 ≠ gbOpSuccess then - EIO else 0,
        msg :: rest, (builtFor (msg :: rest) stale).map I2cMsg.transaction) := by
  have count := request_count msg rest stale
  rw [Nat.mod_eq_of_lt few] at count
  simp only [gbI2cTransfer, gbI2cProtocolTransfer, count]
  rw [if_neg (Nat.succ_ne_zero _)]
  rfl

/-- The messages fit a request of the caller. -/
def FitsRequest (msgs : List I2cMsg) : Prop := hdrSize + (2 + 6 * msgs.length) ≤ greybusMtu

/-- A transfer through the module does what the same transfer does on the module's bus. -/
structure SameAsLocal (bus : Bus) (stale : Nat → UInt8) (msgs : List I2cMsg) : Prop where
  driven : (gbI2cTransfer bus stale msgs).2.2 = msgs.map I2cMsg.transaction
  delivered : (gbI2cTransfer bus stale msgs).2.1 = (i2cTransfer bus msgs).2
  result : (gbI2cTransfer bus stale msgs).1 = 0 ↔ (i2cTransfer bus msgs).1 = 0

/-- The condition under which the caller's single descriptor and its missing data make no difference -/
def EmptyAndAlike (msgs : List I2cMsg) : Prop :=
  ∃ first, msgs.head? = some first ∧
    ∀ msg ∈ msgs, msg.buffer = [] ∧ msg.addr = first.addr ∧ msg.read = first.read

theorem transaction_empty {first msg : I2cMsg} (empty : msg.buffer = []) (addr : msg.addr = first.addr)
    (read : msg.read = first.read) : msg.transaction = ⟨first.addr, first.read, 0, []⟩ := by
  unfold I2cMsg.transaction
  rw [empty, addr, read, ite_self]
  rfl

theorem receive_empty {msg : I2cMsg} (empty : msg.buffer = []) (bytes : List UInt8) : msg.receive bytes = msg := by
  cases msg with
  | mk addr flags buffer =>
    change buffer = [] at empty
    subst empty
    unfold I2cMsg.receive
    split
    · simp
    · rfl

/-- Empty messages of one kind are the same on both sides. -/
theorem sameAsLocal_of_emptyAndAlike {msgs : List I2cMsg} (few : msgs.length < 65536) (alike : EmptyAndAlike msgs)
    (bus : Bus) (stale : Nat → UInt8) : SameAsLocal bus stale msgs := by
  obtain ⟨first, head, all⟩ := alike
  cases msgs with
  | nil => cases head
  | cons msg rest =>
    injection head with head
    subst head
    have empty : msg.buffer = [] := (all msg mem_cons_self).1
    have short : msg.buffer.length < 65536 := by
      rw [empty]
      decide
    have local_same : (msg :: rest).map I2cMsg.transaction =
        replicate (rest.length + 1) ⟨msg.addr, msg.read, 0, []⟩ := by
      apply eq_replicate_iff.mpr
      refine ⟨length_map _, ?_⟩
      intro transaction mem
      obtain ⟨other, member, rfl⟩ := mem_map.mp mem
      obtain ⟨empty, addr, read⟩ := all other member
      exact transaction_empty empty addr read
    have remote_same : (builtFor (msg :: rest) stale).map I2cMsg.transaction =
        replicate (rest.length + 1) ⟨msg.addr, msg.read, 0, []⟩ := by
      apply eq_replicate_iff.mpr
      refine ⟨by rw [length_map, length_builtFor]; rfl, ?_⟩
      intro transaction mem
      obtain ⟨built, member, rfl⟩ := mem_map.mp mem
      obtain ⟨addr, read, length⟩ := builtFor_alike stale short built member
      rw [empty] at length
      exact transaction_empty (eq_nil_of_length_eq_zero length) addr read
    have same := remote_same.trans local_same.symm
    have code : (i2cTransfer bus (builtFor (msg :: rest) stale)).1 = (i2cTransfer bus (msg :: rest)).1 := by
      show (bus _).1 = (bus _).1
      rw [same]
    refine ⟨?_, ?_, ?_⟩
    · rw [gbI2cTransfer_cons bus stale msg rest few]
      exact same
    · rw [gbI2cTransfer_cons bus stale msg rest few]
      show msg :: rest = (msg :: rest).mapIdx _
      symm
      apply ext_getElem (length_mapIdx)
      intro index within inside
      rw [getElem_mapIdx]
      exact receive_empty (all _ (getElem_mem inside)).1 _
    · rw [gbI2cTransfer_cons bus stale msg rest few, code]
      dsimp only
      split
      case isTrue failed =>
        have nonzero := (transferResult_ne_success _).mp failed
        exact ⟨fun zero => absurd zero (by decide), fun zero => absurd zero nonzero⟩
      case isFalse success =>
        have zero : (i2cTransfer bus (msg :: rest)).1 = 0 := by
          by_contra nonzero
          exact success ((transferResult_ne_success _).mpr nonzero)
        exact ⟨fun _ => zero, fun _ => rfl⟩

theorem length_transferRequest (msg : I2cMsg) (rest : List I2cMsg) :
    (transferRequest (msg :: rest)).length = 2 + 6 * (rest.length + 1) := by
  simp only [transferRequest]
  rw [length_append, length_le16Bytes, length_flatten, map_replicate, length_transferDesc,
    sum_replicate_nat, Nat.mul_comm]

section Converse
variable {msg : I2cMsg} {rest : List I2cMsg}

/-- If the module's bus is driven as the local one, all messages have the address, the direction and the length of
the first. -/
theorem alike_of_driven {stale : Nat → UInt8} (short : msg.buffer.length < 65536)
    (driven : (builtFor (msg :: rest) stale).map I2cMsg.transaction = (msg :: rest).map I2cMsg.transaction) :
    ∀ other ∈ msg :: rest, Alike msg other := by
  intro other mem
  have image := mem_map_of_mem (f := I2cMsg.transaction) mem
  rw [← driven] at image
  obtain ⟨built, member, same⟩ := mem_map.mp image
  obtain ⟨addr, read, length⟩ := builtFor_alike stale short built member
  refine ⟨?_, ?_, ?_⟩
  · exact (congrArg Transaction.addr same).symm.trans addr
  · exact (congrArg Transaction.read same).symm.trans read
  · exact (congrArg Transaction.length same).symm.trans length

/-- The data of a write do not go out. -/
theorem no_write_data {byte : UInt8} {tail : List UInt8} (write : msg.read = false)
    (data : msg.buffer = byte :: tail) (short : msg.buffer.length < 65536) :
    (builtFor (msg :: rest) fun _ => byte + 1).map I2cMsg.transaction ≠ (msg :: rest).map I2cMsg.transaction := by
  intro driven
  have head := congrArg head? driven
  rw [head?_map, builtFor_head _ short, map_cons, head?_cons] at head
  injection head with same
  have bytes := congrArg Transaction.data same
  unfold I2cMsg.transaction at bytes
  dsimp only at bytes
  rw [rebuilt_read, write, if_neg Bool.false_ne_true, if_neg Bool.false_ne_true, rebuilt, write,
    if_neg Bool.false_ne_true, data] at bytes
  have first := congrArg head? bytes
  rw [length_cons, range_succ_eq_map, map_cons, head?_cons, head?_cons] at first
  injection first with first
  unfold received at first
  have behind : (transferRequest (msg :: rest)).length ≤ 2 + 6 * (rest.length + 1) + 0 := by
    rw [length_transferRequest]
    omega
  rw [getD_eq_getElem?_getD, getElem?_eq_none behind] at first
  exact absurd first (by simp)

/-- The data of a read do not come back. -/
theorem no_read_data {byte : UInt8} {tail : List UInt8} (read : msg.read = true) (data : msg.buffer = byte :: tail) :
    msg :: rest ≠ (i2cTransfer (fun _ => (0, fun _ => [byte + 1])) (msg :: rest)).2 := by
  intro delivered
  have head := congrArg head? delivered
  simp only [i2cTransfer, mapIdx_cons, head?_cons] at head
  injection head with same
  have buffer := congrArg I2cMsg.buffer same
  unfold I2cMsg.receive at buffer
  rw [if_pos read, data] at buffer
  have first := congrArg head? buffer
  simp at first

end Converse

/-- The AP's transfer is the local one on every bus only for lists of empty messages to one address in one
direction, for the request has the descriptor of the first message at every place and no write data, and what was read
is not copied. -/
theorem remote_transfer_is_local (msgs : List I2cMsg) (fits : FitsRequest msgs)
    (short : ∀ msg ∈ msgs, msg.buffer.length < 65536) :
    (∀ bus stale, SameAsLocal bus stale msgs) ↔ EmptyAndAlike msgs := by
  have few : msgs.length < 65536 := by
    unfold FitsRequest hdrSize greybusMtu at fits
    omega
  constructor
  · intro same
    cases msgs with
    | nil =>
      have result := (same (fun _ => (0, fun _ => [])) fun _ => 0).result
      exact absurd (result.mpr rfl) (by decide)
    | cons msg rest =>
      have first_short := short msg mem_cons_self
      have driven : ∀ stale, (builtFor (msg :: rest) stale).map I2cMsg.transaction =
          (msg :: rest).map I2cMsg.transaction := by
        intro stale
        have held := (same (fun _ => (0, fun _ => [])) stale).driven
        rw [gbI2cTransfer_cons _ stale msg rest few] at held
        exact held
      have empty : msg.buffer = [] := by
        cases data : msg.buffer with
        | nil => rfl
        | cons byte tail =>
          exfalso
          cases direction : msg.read with
          | false => exact no_write_data direction data first_short (driven _)
          | true =>
            have held := (same (fun _ => (0, fun _ => [byte + 1])) fun _ => 0).delivered
            rw [gbI2cTransfer_cons _ _ msg rest few] at held
            exact no_read_data direction data held
      refine ⟨msg, rfl, ?_⟩
      intro other mem
      obtain ⟨addr, read, length⟩ := alike_of_driven first_short (driven fun _ => 0) other mem
      rw [empty] at length
      exact ⟨eq_nil_of_length_eq_zero length, addr, read⟩
  · intro alike bus stale
    exact sameAsLocal_of_emptyAndAlike few alike bus stale

/-- Two empty writes to one address are carried out as they are locally. -/
theorem remote_transfer_is_local_probe :
    SameAsLocal (fun _ => (0, fun _ => [0x42])) (fun _ => 0xee) [⟨0x50, 0, []⟩, ⟨0x50, 0, []⟩] :=
  (remote_transfer_is_local [⟨0x50, 0, []⟩, ⟨0x50, 0, []⟩] (by unfold FitsRequest; decide)
    (by simp)).mpr ⟨⟨0x50, 0, []⟩, rfl, by simp⟩ _ _

/-- Of the write of a register number and the read of its value, the bus sees two writes of a byte that the caller
did not give. -/
theorem gb_i2c_transfer_repeats_first_message :
    gbI2cTransfer (fun _ => (0, fun _ => [0x42])) (fun _ => 0xee) [⟨0x50, 0, [0x07]⟩, ⟨0x50, i2cMRead, [0]⟩] =
        (0, [⟨0x50, 0, [0x07]⟩, ⟨0x50, i2cMRead, [0]⟩], [⟨0x50, false, 1, [0xee]⟩, ⟨0x50, false, 1, [0xee]⟩]) ∧
      [(⟨0x50, 0, [0x07]⟩ : I2cMsg), ⟨0x50, i2cMRead, [0]⟩].map I2cMsg.transaction =
        [⟨0x50, false, 1, [0x07]⟩, ⟨0x50, true, 1, []⟩] ∧
      ¬ SameAsLocal (fun _ => (0, fun _ => [0x42])) (fun _ => 0xee) [⟨0x50, 0, [0x07]⟩, ⟨0x50, i2cMRead, [0]⟩] := by
  refine ⟨by decide +kernel, by decide +kernel, ?_⟩
  intro same
  exact absurd same.driven (by decide +kernel)

end Phabos.I2c
