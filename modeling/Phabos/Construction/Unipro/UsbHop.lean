import Phabos.Library.ByteMemory

/-
This file embeds the way of a message over USB: arch/arm/mach-tsb/apba-usb-unipro.c on the AP, apps/apbridgea/apbridge.c
and drivers/usb/gadget/gb-ap-bridge.c on the bridge. The USB itself delivers the bytes of a request as they were given to
it.
-/

namespace Phabos.UsbHop

open Library

/-- `sizeof(struct gb_operation_hdr)` -/
def hdrSize : Nat := 8

def apbridgeReqSize : Nat := 2048

/-- `hdr->pad[0]` -/
def pad0 (buf : List UInt8) : Nat := (buf.getD 6 0).toNat

/-- `hdr->pad[1]` -/
def pad1 (buf : List UInt8) : Nat := (buf.getD 7 0).toNat

def setPad0 (buf : List UInt8) (value : Nat) : List UInt8 := buf.set 6 (UInt8.ofNat value)

def setPad1 (buf : List UInt8) (value : Nat) : List UInt8 := buf.set 7 (UInt8.ofNat value)

/-- `apba_unipro_send`: the bytes that it submits -/
def apbaUniproSend (cport : Nat) (buf : List UInt8) : List UInt8 := setPad0 buf (cport &&& 0xff)

/-- `get_cportid` -/
def getCportid (hdr : List UInt8) : Nat := pad1 hdr <<< 8 ||| pad0 hdr

/-- `usb_to_unipro`: the CPort and the bytes for the backend -/
def usbToUnipro (buf : List UInt8) : Option (Nat × List UInt8) :=
  if buf.length < hdrSize then none
  else
    let cportid := pad1 buf <<< 8 ||| pad0 buf
    some (cportid, setPad1 (setPad0 buf 0) 0)

/-- `usbclass_rdcomplete` on a bulk endpoint for a request with this result -/
def usbclassRdcomplete (epoutToCport : Nat → Nat) (result : Int) (epN : Nat) (buf : List UInt8) :
    Option (Nat × List UInt8) :=
  if result = 0 then
    let buf :=
      if epN ≠ 0 then
        let cportid := epoutToCport epN
        setPad1 (setPad0 buf (cportid &&& 0xff)) (cportid >>> 8 &&& 0xff)
      else buf
    usbToUnipro buf
  else none

/-- `gb_packet_size` -/
def gbPacketSize (rbuf : List UInt8) : Nat := le16 rbuf 0

/-- `unipro_to_usb`: the endpoint and the bytes of its request -/
def uniproToUsb (cportToEpin : Nat → Nat) (payload : List UInt8) (len : Nat) : Option (Nat × List UInt8) :=
  if apbridgeReqSize < len then none
  else
    let cportid := getCportid payload
    some (cportToEpin cportid, payload.take len)

/-- `recv_from_unipro` -/
def recvFromUnipro (cportToEpin : Nat → Nat) (cportid : Nat) (buf : List UInt8) : Option (Nat × List UInt8) :=
  let len := gbPacketSize buf
  let buf :=
    if hdrSize ≤ len then setPad1 (setPad0 buf (cportid &&& 0xff)) (cportid >>> 8 &&& 0xff)
    else buf
  uniproToUsb cportToEpin buf len

/-- What `apba_unipro_rx_cb` does with the bytes of its URB -/
inductive Handed
  | dropped
  /-- The CPort has no driver with an `rx_handler`. -/
  | noDriver (cport : Nat)
  /-- The `rx_handler` of the driver of the CPort is called. -/
  | driver (cport : Nat) (buf : List UInt8)
  deriving DecidableEq, Repr

/-- `apba_unipro_rx_cb` on an AP with so many CPorts, of which some have a driver -/
def apbaUniproRxCb (cportCount : Nat) (hasDriver : Nat → Bool) (status : Int) (buf : List UInt8) : Handed :=
  if status ≠ 0 then .dropped
  else if buf.length < hdrSize then .dropped
  else
    let cportid := le16 buf 6
    if cportCount ≤ cportid then .dropped
    else if hasDriver cportid then .driver cportid buf
    else .noDriver cportid

/-- A message that the AP sends on a CPort is handed to the bridge's backend for that CPort, with clear pad bytes. -/
def SentTo (cport : Nat) (message : List UInt8) : Prop :=
  ∀ epoutToCport, usbclassRdcomplete epoutToCport 0 0 (apbaUniproSend cport message) =
    some (cport, setPad1 (setPad0 message 0) 0)

/-- Outside the pad bytes the two messages are the same. -/
def SameOutsidePad (one other : List UInt8) : Prop := ∀ index, index ≠ 6 → index ≠ 7 → one[index]? = other[index]?

/-- Each message that the bridge has received on a CPort and delivered is handed to the driver of that CPort, unless
the AP does not have the CPort. -/
def ReceivedFrom (cport : Nat) : Prop :=
  ∀ (buf : List UInt8) (cportToEpin : Nat → Nat) (epin : Nat) (delivered : List UInt8) (cportCount : Nat)
    (hasDriver : Nat → Bool), hdrSize ≤ gbPacketSize buf → gbPacketSize buf ≤ buf.length →
    recvFromUnipro cportToEpin cport buf = some (epin, delivered) →
      SameOutsidePad delivered (buf.take (gbPacketSize buf)) ∧
        apbaUniproRxCb cportCount hasDriver 0 delivered =
          if cport < cportCount then
            if hasDriver cport then .driver cport delivered else .noDriver cport
          else .dropped

end Phabos.UsbHop
