import Phabos.Construction.Greybus.OperationBuffers
import Phabos.Library.ByteMemory

/-
This file embeds an I2C transfer through drivers/greybus/ap/i2c.c and drivers/greybus/module/i2c.c. The transport
delivers the request and the result, and the allocations succeed but for one of no bytes.
-/

namespace Phabos.I2c

open Library

def EIO : Int := 5

/-- `GREYBUS_MTU` -/
def greybusMtu : Nat := 2048

/-- `sizeof(struct gb_operation_hdr)` -/
def hdrSize : Nat := 8

def gbOpSuccess : Nat := 0x00

def gbOpNoMemory : Nat := 0x03

def gbOpNonexistent : Nat := 0x08

def gbOpUnknownError : Nat := 0xfe

/-- `I2C_M_READ` of include/phabos/i2c.h, and `I2C_M_RD` of the module -/
def i2cMRead : BitVec 32 := 1

/-- `struct i2c_msg`. The length is that of the buffer. -/
structure I2cMsg where
  addr : BitVec 16
  flags : BitVec 32
  buffer : List UInt8
  deriving DecidableEq, Repr

def I2cMsg.read (msg : I2cMsg) : Bool := msg.flags &&& i2cMRead ≠ 0

/-- A message as the bus sees it -/
structure Transaction where
  addr : BitVec 16
  read : Bool
  length : Nat
  data : List UInt8
  deriving DecidableEq, Repr

def I2cMsg.transaction (msg : I2cMsg) : Transaction :=
  ⟨msg.addr, msg.read, msg.buffer.length, if msg.read then [] else msg.buffer⟩

/-- A behaviour of a bus: the return code of a transfer, and the bytes that each message reads -/
abbrev Bus := List Transaction → Int × (Nat → List UInt8)

/-- The bytes that were read are in the front of the buffer. -/
def I2cMsg.receive (msg : I2cMsg) (bytes : List UInt8) : I2cMsg :=
  if msg.read then { msg with buffer := bytes.take msg.buffer.length ++ msg.buffer.drop bytes.length } else msg

/-- `i2c_transfer` -/
def i2cTransfer (bus : Bus) (msgs : List I2cMsg) : Int × List I2cMsg :=
  let (retval, bytes) := bus (msgs.map I2cMsg.transaction)
  (retval, msgs.mapIdx fun index msg => msg.receive (bytes index))

/-- `struct gb_i2c_transfer_desc` -/
def transferDesc (msg : I2cMsg) : List UInt8 :=
  le16Bytes msg.addr.toNat ++ le16Bytes msg.flags.toNat ++ le16Bytes msg.buffer.length

/-- The payload of the request. The loop of `gb_i2c_transfer` reads the first message for every descriptor. -/
def transferRequest : List I2cMsg → List UInt8
  | [] => le16Bytes 0
  | msg :: rest => le16Bytes (rest.length + 1) ++ (List.replicate (rest.length + 1) (transferDesc msg)).flatten

/-- A buffer that held `stale` when the payload was received -/
def received (payload : List UInt8) (stale : Nat → UInt8) (offset : Nat) : UInt8 :=
  payload.getD offset (stale offset)

def le16At (memory : Nat → UInt8) (offset : Nat) : Nat :=
  (memory offset).toNat + 256 * (memory (offset + 1)).toNat

/-- The second loop of `gb_i2c_protocol_transfer`, with the offset of the write data. Each read gets its own part of
the response, which is clear. -/
def buildMsgs (memory : Nat → UInt8) : List Nat → Nat → List I2cMsg
  | [], _ => []
  | i :: rest, writeData =>
    let desc := 2 + 6 * i
    let addr := BitVec.ofNat 16 (le16At memory desc)
    let readOp := BitVec.ofNat 32 (le16At memory (desc + 2)) &&& i2cMRead ≠ 0
    let size := le16At memory (desc + 4)
    if readOp then ⟨addr, i2cMRead, List.replicate size 0⟩ :: buildMsgs memory rest writeData
    else
      ⟨addr, 0, (List.range size).map fun offset => memory (writeData + offset)⟩ ::
        buildMsgs memory rest (writeData + size)

/-- The end of `gb_i2c_protocol_transfer` -/
def transferResult (ret : Int) : Nat :=
  if ret = - EIO then gbOpNonexistent else if ret ≠ 0 then gbOpUnknownError else gbOpSuccess

/-- `gb_i2c_protocol_transfer`: the result, the data of the response and the messages of the bus. `malloc` returns
`NULL` for no messages. -/
def gbI2cProtocolTransfer (bus : Bus) (memory : Nat → UInt8) : Nat × List UInt8 × List Transaction :=
  let opCount := le16At memory 0
  if opCount = 0 then (gbOpNoMemory, [], [])
  else
    let msgs := buildMsgs memory (List.range opCount) (2 + 6 * opCount)
    let (ret, after) := i2cTransfer bus msgs
    let data := (after.filter I2cMsg.read).flatMap I2cMsg.buffer
    (transferResult ret, data, msgs.map I2cMsg.transaction)

/-- `gb_i2c_transfer`, with the module at the other end: the return code, the messages afterwards and the messages of
the module's bus -/
def gbI2cTransfer (bus : Bus) (stale : Nat → UInt8) (msgs : List I2cMsg) :
    Int × List I2cMsg × List Transaction :=
  let (result, _, transactions) := gbI2cProtocolTransfer bus (received (transferRequest msgs) stale)
  (if result ≠ gbOpSuccess then - EIO else 0, msgs, transactions)

end Phabos.I2c

/-
This part embeds `gb_i2c_protocol_transfer` of drivers/greybus/module/i2c.c with the places of the buffers that it hands
to the bus. The bytes of the request from its payload on are a function of their address, with those behind the payload.
-/

namespace Phabos.I2c.Buffers

open OperationBuffers (GbResponse gbOperationAllocResponse)

/-- A message for the bus. The buffer of a read is in the payload of the response, that of a write in the payload of the
request. -/
structure Msg where
  read : Bool
  buffer : ℕ
  length : ℕ
  deriving DecidableEq, Repr

/-- The offset of `request->desc[i]` -/
def descAt (i : ℕ) : ℕ := 2 + 6 * i

def readOp (request : ℕ → UInt8) (i : ℕ) : Bool := BitVec.ofNat 32 (le16At request (descAt i + 2)) &&& i2cMRead ≠ 0

def descSize (request : ℕ → UInt8) (i : ℕ) : ℕ := le16At request (descAt i + 4)

/-- The first loop, which adds up the sizes of the reads -/
def readSize (request : ℕ → UInt8) (descs : List ℕ) : ℕ :=
  ((descs.filter (readOp request)).map (descSize request)).sum % 2 ^ 32

/-- The second loop, with `write_data` and `read_count` -/
def buildMsgs (request : ℕ → UInt8) : List ℕ → (writeData readCount : ℕ) → List Msg
  | [], _, _ => []
  | i :: rest, writeData, readCount =>
    let size := descSize request i
    if readOp request i then ⟨true, readCount, size⟩ :: buildMsgs request rest writeData (readCount + size)
    else ⟨false, writeData, size⟩ :: buildMsgs request rest (writeData + size) readCount

/-- What a call does: the descriptors that it reads, the response that it allocates, and the messages with which it calls
`i2c_transfer`, if it does. -/
structure Transfer where
  descs : List ℕ
  response : Option GbResponse
  msgs : Option (List Msg)
  deriving DecidableEq, Repr

/-- `memory` is the outcome of the allocation of the messages, which fails for no messages, and `malloc` that of the
allocation of a response by its size. -/
def gbI2cProtocolTransfer (memory : Bool) (malloc : ℕ → Bool) (request : ℕ → UInt8) : Transfer :=
  let opCount := le16At request 0
  let descs := List.range opCount
  if opCount = 0 ∨ !memory then ⟨descs, none, none⟩
  else
    match gbOperationAllocResponse malloc (readSize request descs) with
    | none => ⟨descs, none, none⟩
    | some response => ⟨descs, some response, some (buildMsgs request descs (descAt opCount) 0)⟩

end Phabos.I2c.Buffers
