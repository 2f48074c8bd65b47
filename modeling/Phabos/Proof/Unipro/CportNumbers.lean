import Phabos.Construction.Unipro.UsbHop

namespace Phabos.UsbHop
open List

open Library List

theorem pads_or (buf : List UInt8) : pad1 buf <<< 8 ||| pad0 buf = 256 * pad1 buf + pad0 buf := by
  have small : pad0 buf < 2 ^ 8 := (buf.getD 6 0).toNat_lt
  rw [← Nat.shiftLeft_add_eq_or_of_lt small, Nat.shiftLeft_eq, Nat.mul_comm]

section Pads
variable (buf : List UInt8) (value : Nat)

theorem length_setPad0 : (setPad0 buf value).length = buf.length := length_set

theorem length_setPad1 : (setPad1 buf value).length = buf.length := length_set

theorem pad1_setPad0 : pad1 (setPad0 buf value) = pad1 buf := by
  unfold pad1 setPad0
  rw [getD_eq_getElem?_getD, getElem?_set_ne (by decide), getD_eq_getElem?_getD]

theorem pad0_setPad1 : pad0 (setPad1 buf value) = pad0 buf := by
  unfold pad0 setPad1
  rw [getD_eq_getElem?_getD, getElem?_set_ne (by decide), getD_eq_getElem?_getD]

theorem pad0_setPad0 (long : hdrSize ≤ buf.length) : pad0 (setPad0 buf value) = value % 256 := by
  have within : 6 < buf.length := by
    unfold hdrSize at long
    omega
  unfold pad0 setPad0
  rw [getD_eq_getElem?_getD, getElem?_set_self within]
  exact UInt8.toNat_ofNat'

theorem pad1_setPad1 (long : hdrSize ≤ buf.length) : pad1 (setPad1 buf value) = value % 256 := by
  have within : 7 < buf.length := by
    unfold hdrSize at long
    omega
  unfold pad1 setPad1
  rw [getD_eq_getElem?_getD, getElem?_set_self within]
  exact UInt8.toNat_ofNat'

theorem setPad0_setPad0 (other : Nat) : setPad0 (setPad0 buf value) other = setPad0 buf other := set_set ..

end Pads

theorem usbclassRdcomplete_apbaUniproSend (epoutToCport : Nat → Nat) (cport : Nat) (message : List UInt8)
    (long : hdrSize ≤ message.length) :
    usbclassRdcomplete epoutToCport 0 0 (apbaUniproSend cport message) =
      some (256 * pad1 message + cport % 256, setPad1 (setPad0 message 0) 0) := by
  have low : pad0 (apbaUniproSend cport message) = cport % 256 := by
    have mask : cport &&& 0xff = cport % 256 := Nat.and_two_pow_sub_one_eq_mod cport 8
    unfold apbaUniproSend
    rw [pad0_setPad0 _ _ long, mask, Nat.mod_mod]
  have high : pad1 (apbaUniproSend cport message) = pad1 message := pad1_setPad0 ..
  unfold usbclassRdcomplete
  rw [if_pos rfl, if_neg (by decide)]
  unfold usbToUnipro
  rw [if_neg (by rw [apbaUniproSend, length_setPad0]; omega), pads_or, low, high]
  dsimp only
  rw [apbaUniproSend, setPad0_setPad0]

/-- A message goes to its cport exactly when the second pad byte is the high byte of the number. -/
theorem sentTo_iff (cport : Nat) (message : List UInt8) (long : hdrSize ≤ message.length) :
    SentTo cport message ↔ pad1 message = cport / 256 := by
  constructor
  · intro sent
    have arrived := sent id
    rw [usbclassRdcomplete_apbaUniproSend _ _ _ long] at arrived
    injection arrived with arrived
    have same : 256 * pad1 message + cport % 256 = cport := congrArg Prod.fst arrived
    omega
  · intro right epoutToCport
    rw [usbclassRdcomplete_apbaUniproSend _ _ _ long]
    have same : 256 * pad1 message + cport % 256 = cport := by omega
    rw [same]

theorem recvFromUnipro_delivered {cportToEpin : Nat → Nat} {cport epin : Nat} {buf delivered : List UInt8}
    (long : hdrSize ≤ gbPacketSize buf) (received : recvFromUnipro cportToEpin cport buf = some (epin, delivered)) :
    delivered = setPad1 (setPad0 (buf.take (gbPacketSize buf)) (cport % 256)) (cport / 256 % 256) := by
  have low : cport &&& 0xff = cport % 256 := Nat.and_two_pow_sub_one_eq_mod cport 8
  have high : cport >>> 8 &&& 0xff = cport / 256 % 256 := by
    rw [Nat.shiftRight_eq_div_pow]
    exact Nat.and_two_pow_sub_one_eq_mod _ 8
  simp only [recvFromUnipro, uniproToUsb] at received
  rw [if_pos long, low, high] at received
  split at received
  · cases received
  · injection received with received
    injection received with _ same
    rw [← same]
    unfold setPad1 setPad0
    rw [take_set, take_set]

theorem sameOutsidePad_setPads (message : List UInt8) (low high : Nat) :
    SameOutsidePad (setPad1 (setPad0 message low) high) message := by
  intro index not_low not_high
  unfold setPad1 setPad0
  rw [getElem?_set_ne (Ne.symm not_high), getElem?_set_ne (Ne.symm not_low)]

/-- A message that comes back has the number of its cport. -/
theorem receivedFrom {cport : Nat} (fits : cport < 65536) : ReceivedFrom cport := by
  intro buf cportToEpin epin delivered cportCount hasDriver long within received
  obtain rfl := recvFromUnipro_delivered long received
  refine ⟨sameOutsidePad_setPads _ _ _, ?_⟩
  have length : (buf.take (gbPacketSize buf)).length = gbPacketSize buf := by
    rw [length_take, Nat.min_eq_left within]
  have long_message : hdrSize ≤ (buf.take (gbPacketSize buf)).length := length.symm ▸ long
  have cportid : le16 (setPad1 (setPad0 (buf.take (gbPacketSize buf)) (cport % 256)) (cport / 256 % 256)) 6 = cport := by
    show pad0 _ + 256 * pad1 _ = cport
    rw [pad0_setPad1, pad0_setPad0 _ _ long_message,
      pad1_setPad1 _ _ (by rw [length_setPad0]; exact long_message)]
    omega
  unfold apbaUniproRxCb
  rw [if_neg (by decide), if_neg (by rw [length_setPad1, length_setPad0]; omega), cportid]
  by_cases known : cport < cportCount
  · rw [if_pos known, if_neg (by omega)]
  · rw [if_neg known, if_pos (by omega)]

/-- The CPort number of a message survives both ways exactly if the second pad byte of the message that the AP sends is
already the high byte of that number. -/
theorem cport_numbers_survive_iff (cport : Nat) (message : List UInt8) (fits : cport < 65536)
    (long : hdrSize ≤ message.length) :
    SentTo cport message ∧ ReceivedFrom cport ↔ pad1 message = cport / 256 := by
  rw [sentTo_iff cport message long]
  exact and_iff_left (receivedFrom fits)

/-- A message of a fresh operation on CPort 5 -/
theorem cport_numbers_survive_iff_low :
    SentTo 5 [8, 0, 1, 0, 2, 0, 0, 0] ∧ ReceivedFrom 5 :=
  (cport_numbers_survive_iff 5 [8, 0, 1, 0, 2, 0, 0, 0] (by decide) (by decide)).mpr (by decide)

/-- A message of a fresh operation on CPort 300 arrives for CPort 44, and one on CPort 5 in a buffer that has held the
number 300 for CPort 261. -/
theorem apba_unipro_send_loses_high_byte :
    usbclassRdcomplete id 0 0 (apbaUniproSend 300 [8, 0, 1, 0, 2, 0, 0, 0]) = some (44, [8, 0, 1, 0, 2, 0, 0, 0]) ∧
      usbclassRdcomplete id 0 0 (apbaUniproSend 5 [8, 0, 1, 0, 2, 0, 44, 1]) = some (261, [8, 0, 1, 0, 2, 0, 0, 0]) ∧
      ¬ SentTo 300 [8, 0, 1, 0, 2, 0, 0, 0] := by
  refine ⟨by decide, by decide, ?_⟩
  intro sent
  exact absurd (sent id) (by decide)

end Phabos.UsbHop
