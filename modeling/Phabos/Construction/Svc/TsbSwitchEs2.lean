import Phabos.Library.ByteMemory

/-
This file embeds the NCP commands of apps/svc/tsb_switch_es2.c and a switch that keeps the registers they access.
-/

namespace Phabos.Switch

open Library

abbrev Byte := BitVec 8

/-- The device id mask of a port -/
abbrev Mask := Vector Byte 16

/-- `SWITCH_DEVICE_ID` -/
def switchDeviceId : Byte := 0

def eio : Int := 5

def eproto : Int := 71

def ncpReserved : Byte := 0x00

def ncpSetReq : Byte := 0x00

def ncpSetCnf : Byte := 0x01

def ncpPeerSetReq : Byte := 0x02

def ncpPeerSetCnf : Byte := 0x03

def ncpGetReq : Byte := 0x04

def ncpGetCnf : Byte := 0x05

def ncpPeerGetReq : Byte := 0x06

def ncpPeerGetCnf : Byte := 0x07

def ncpLutSetReq : Byte := 0x10

def ncpLutSetCnf : Byte := 0x11

def ncpLutGetReq : Byte := 0x12

def ncpLutGetCnf : Byte := 0x13

def ncpSetDeviceIdMaskReq : Byte := 0x14

def ncpSetDeviceIdMaskCnf : Byte := 0x15

def ncpGetDeviceIdMaskReq : Byte := 0x16

def ncpGetDeviceIdMaskCnf : Byte := 0x17

def ncpSwitchAttrSetReq : Byte := 0x20

def ncpSwitchAttrSetCnf : Byte := 0x21

def ncpSwitchAttrGetReq : Byte := 0x22

def ncpSwitchAttrGetCnf : Byte := 0x23

def ncpSysCtrlSetReq : Byte := 0x30

def ncpSysCtrlSetCnf : Byte := 0x31

def ncpSysCtrlGetReq : Byte := 0x32

def ncpSysCtrlGetCnf : Byte := 0x33

/-- `es2_ncp_transfer`: it sends a request and reads a confirmation of a given size, or fails with a return code. -/
abbrev NcpTransfer (Switch : Type) := List Byte → (size : Nat) → StateM Switch (Except Int (Vector Byte size))

section Commands
variable {Switch : Type} (transfer : NcpTransfer Switch)

/-- The common course of the commands. `rest` is the size of the confirmation after its first two bytes. -/
def ncpCommand {Result : Type} (req : List Byte) (rest : Nat) (functionId : Byte) (failed : Int → Result)
    (finish : Vector Byte (rest + 2) → Result) : StateM Switch Result := do
  match ← transfer req (rest + 2) with
  | .error rc => return failed rc
  | .ok cnf => if cnf[1] ≠ functionId then return failed (-eproto) else return finish cnf

def es2Set (portId : Byte) (attrid selectIndex : BitVec 16) (val : BitVec 32) : StateM Switch Int :=
  ncpCommand transfer
    ([switchDeviceId, portId, ncpSetReq] ++ be16Bytes attrid ++ be16Bytes selectIndex ++ be32Bytes val)
    2 ncpSetCnf id fun cnf => cnf[3].toNat

/-- A command that reads takes the variable of its caller and returns what the variable holds afterwards. -/
def es2Get (portId : Byte) (attrid selectIndex : BitVec 16) (val : BitVec 32) :
    StateM Switch (Int × BitVec 32) :=
  ncpCommand transfer ([switchDeviceId, portId, ncpGetReq] ++ be16Bytes attrid ++ be16Bytes selectIndex)
    6 ncpGetCnf (fun rc => (rc, val)) fun cnf => (cnf[3].toNat, be32 cnf[4] cnf[5] cnf[6] cnf[7])

def es2PeerSet (portId : Byte) (attrid selectIndex : BitVec 16) (val : BitVec 32) : StateM Switch Int :=
  ncpCommand transfer
    ([switchDeviceId, portId, ncpPeerSetReq] ++ be16Bytes attrid ++ be16Bytes selectIndex ++ be32Bytes val)
    2 ncpPeerSetCnf id fun cnf => cnf[3].toNat

def es2PeerGet (portId : Byte) (attrid selectIndex : BitVec 16) (val : BitVec 32) :
    StateM Switch (Int × BitVec 32) :=
  ncpCommand transfer ([switchDeviceId, portId, ncpPeerGetReq] ++ be16Bytes attrid ++ be16Bytes selectIndex)
    6 ncpPeerGetCnf (fun rc => (rc, val)) fun cnf => (cnf[3].toNat, be32 cnf[4] cnf[5] cnf[6] cnf[7])

def es2LutSet (uniproPortid lutAddress destPortid : Byte) : StateM Switch Int :=
  ncpCommand transfer [switchDeviceId, lutAddress, ncpLutSetReq, uniproPortid, destPortid]
    2 ncpLutSetCnf id fun cnf => cnf[0].toNat

def es2LutGet (uniproPortid lutAddress destPortid : Byte) : StateM Switch (Int × Byte) :=
  ncpCommand transfer [switchDeviceId, lutAddress, ncpLutGetReq, uniproPortid, ncpReserved]
    2 ncpLutGetCnf (fun rc => (rc, destPortid)) fun cnf => (cnf[0].toNat, cnf[3])

def es2SysCtrlSet (scAddr : BitVec 16) (val : BitVec 32) : StateM Switch Int :=
  ncpCommand transfer ([switchDeviceId, ncpReserved, ncpSysCtrlSetReq] ++ be16Bytes scAddr ++ be32Bytes val)
    0 ncpSysCtrlSetCnf id fun cnf => cnf[0].toNat

/-- The value is `be32_to_cpu(cnf.rc)`: the result code, with its bytes swapped, and not the value of the
confirmation. -/
def es2SysCtrlGet (scAddr : BitVec 16) (val : BitVec 32) : StateM Switch (Int × BitVec 32) :=
  ncpCommand transfer ([switchDeviceId, ncpReserved, ncpSysCtrlGetReq] ++ be16Bytes scAddr)
    4 ncpSysCtrlGetCnf (fun rc => (rc, val))
    fun cnf => (cnf[0].toNat, if cnf[0] = 0 then be32 cnf[0] 0 0 0 else val)

def es2DevIdMaskSet (uniproPortid : Byte) (mask : Mask) : StateM Switch Int :=
  ncpCommand transfer ([switchDeviceId, uniproPortid, ncpSetDeviceIdMaskReq] ++ mask.toList)
    2 ncpSetDeviceIdMaskCnf id fun cnf => cnf[0].toNat

def es2DevIdMaskGet (uniproPortid : Byte) (dst : Mask) : StateM Switch (Int × Mask) :=
  ncpCommand transfer [switchDeviceId, uniproPortid, ncpGetDeviceIdMaskReq]
    18 ncpGetDeviceIdMaskCnf (fun rc => (rc, dst))
    fun cnf => (cnf[0].toNat, Vector.ofFn fun index => cnf[4 + index.val])

def es2SwitchAttrSet (attrid : BitVec 16) (val : BitVec 32) : StateM Switch Int :=
  ncpCommand transfer ([switchDeviceId, ncpReserved, ncpSwitchAttrSetReq] ++ be16Bytes attrid ++ be32Bytes val)
    0 ncpSwitchAttrSetCnf id fun cnf => cnf[0].toNat

def es2SwitchAttrGet (attrid : BitVec 16) (val : BitVec 32) : StateM Switch (Int × BitVec 32) :=
  ncpCommand transfer ([switchDeviceId, ncpReserved, ncpSwitchAttrGetReq] ++ be16Bytes attrid)
    4 ncpSwitchAttrGetCnf (fun rc => (rc, val)) fun cnf => (cnf[0].toNat, be32 cnf[2] cnf[3] cnf[4] cnf[5])

end Commands

/-- A cell of the registers of a switch -/
inductive Cell
  | attr (portId : Byte) (attrid selectIndex : BitVec 16)
  | peerAttr (portId : Byte) (attrid selectIndex : BitVec 16)
  | lut (uniproPortid lutAddress : Byte)
  | sysCtrl (scAddr : BitVec 16)
  | devIdMask (uniproPortid : Byte)
  | switchAttr (attrid : BitVec 16)
  deriving DecidableEq, Repr

abbrev Cell.Value : Cell → Type
  | .attr .. | .peerAttr .. | .sysCtrl _ | .switchAttr _ => BitVec 32
  | .lut .. => Byte
  | .devIdMask _ => Mask

/-- The registers of a switch -/
abbrev Registers := (cell : Cell) → cell.Value

def Registers.clear : Registers
  | .attr .. | .peerAttr .. | .sysCtrl _ | .switchAttr _ => (0 : BitVec 32)
  | .lut .. => (0 : Byte)
  | .devIdMask _ => Vector.replicate 16 0

/-- A request that the switch has decoded -/
inductive Command
  | set (cell : Cell) (val : cell.Value)
  | get (cell : Cell)

/-- The switch decodes the port at byte 1, the function at byte 2, the attribute from byte 3 on and the selector
from byte 5 on. -/
def decode : List Byte → Option Command
  | [_, port, function, a1, a0, s1, s0, v3, v2, v1, v0] =>
    if function = ncpSetReq then some (.set (.attr port (be16 a1 a0) (be16 s1 s0)) (be32 v3 v2 v1 v0))
    else if function = ncpPeerSetReq then
      some (.set (.peerAttr port (be16 a1 a0) (be16 s1 s0)) (be32 v3 v2 v1 v0))
    else none
  | [_, port, function, a1, a0, s1, s0] =>
    if function = ncpGetReq then some (.get (.attr port (be16 a1 a0) (be16 s1 s0)))
    else if function = ncpPeerGetReq then some (.get (.peerAttr port (be16 a1 a0) (be16 s1 s0)))
    else none
  | [_, _, function, a1, a0, v3, v2, v1, v0] =>
    if function = ncpSysCtrlSetReq then some (.set (.sysCtrl (be16 a1 a0)) (be32 v3 v2 v1 v0))
    else if function = ncpSwitchAttrSetReq then some (.set (.switchAttr (be16 a1 a0)) (be32 v3 v2 v1 v0))
    else none
  | [_, address, function, a1, a0] =>
    if function = ncpLutSetReq then some (.set (.lut a1 address) a0)
    else if function = ncpLutGetReq then some (.get (.lut a1 address))
    else if function = ncpSysCtrlGetReq then some (.get (.sysCtrl (be16 a1 a0)))
    else if function = ncpSwitchAttrGetReq then some (.get (.switchAttr (be16 a1 a0)))
    else none
  | [_, port, function] => if function = ncpGetDeviceIdMaskReq then some (.get (.devIdMask port)) else none
  | _ :: port :: function :: mask =>
    if function = ncpSetDeviceIdMaskReq then
      if full : mask.length = 16 then some (.set (.devIdMask port) ⟨mask.toArray, full⟩) else none
    else none
  | _ => none

/-- The confirmation of a set, with result code 0 -/
def Cell.setCnf : Cell → List Byte
  | .attr port .. => [port, ncpSetCnf, ncpReserved, 0]
  | .peerAttr port .. => [port, ncpPeerSetCnf, ncpReserved, 0]
  | .lut port _ => [0, ncpLutSetCnf, port, ncpReserved]
  | .sysCtrl _ => [0, ncpSysCtrlSetCnf]
  | .devIdMask port => [0, ncpSetDeviceIdMaskCnf, port, ncpReserved]
  | .switchAttr _ => [0, ncpSwitchAttrSetCnf]

/-- The confirmation of a get, with result code 0 and the stored value -/
def Cell.getCnf : (cell : Cell) → cell.Value → List Byte
  | .attr port .., val => [port, ncpGetCnf, ncpReserved, 0] ++ be32Bytes val
  | .peerAttr port .., val => [port, ncpPeerGetCnf, ncpReserved, 0] ++ be32Bytes val
  | .lut port _, val => [0, ncpLutGetCnf, port, val]
  | .sysCtrl _, val => [0, ncpSysCtrlGetCnf] ++ be32Bytes val
  | .devIdMask port, val => [0, ncpGetDeviceIdMaskCnf, port, ncpReserved] ++ val.toList
  | .switchAttr _, val => [0, ncpSwitchAttrGetCnf] ++ be32Bytes val

def Registers.perform (registers : Registers) : Command → List Byte × Registers
  | .set cell val => (cell.setCnf, Function.update registers cell val)
  | .get cell => (cell.getCnf (registers cell), registers)

/-- The switch does not answer a request that it cannot decode. -/
def registerTransfer : NcpTransfer Registers := fun req size registers =>
  match decode req with
  | none => (.error (-eio), registers)
  | some command =>
    let (cnf, after) := registers.perform command
    if fits : cnf.length = size then (.ok ⟨cnf.toArray, fits⟩, after) else (.error (-eio), after)

/-- The command that sets a cell -/
def es2SetCell {Switch : Type} (transfer : NcpTransfer Switch) : (cell : Cell) → cell.Value → StateM Switch Int
  | .attr portId attrid selectIndex, val => es2Set transfer portId attrid selectIndex val
  | .peerAttr portId attrid selectIndex, val => es2PeerSet transfer portId attrid selectIndex val
  | .lut uniproPortid lutAddress, val => es2LutSet transfer uniproPortid lutAddress val
  | .sysCtrl scAddr, val => es2SysCtrlSet transfer scAddr val
  | .devIdMask uniproPortid, val => es2DevIdMaskSet transfer uniproPortid val
  | .switchAttr attrid, val => es2SwitchAttrSet transfer attrid val

/-- The command that gets a cell -/
def es2GetCell {Switch : Type} (transfer : NcpTransfer Switch) :
    (cell : Cell) → cell.Value → StateM Switch (Int × cell.Value)
  | .attr portId attrid selectIndex, val => es2Get transfer portId attrid selectIndex val
  | .peerAttr portId attrid selectIndex, val => es2PeerGet transfer portId attrid selectIndex val
  | .lut uniproPortid lutAddress, val => es2LutGet transfer uniproPortid lutAddress val
  | .sysCtrl scAddr, val => es2SysCtrlGet transfer scAddr val
  | .devIdMask uniproPortid, val => es2DevIdMaskGet transfer uniproPortid val
  | .switchAttr attrid, val => es2SwitchAttrGet transfer attrid val

end Phabos.Switch

/-
This part embeds how apps/svc/tsb_switch_es2.c reads from the switch over SPI: the check of a write status, the state of
a FIFO and the reading of a reply. The bytes from the start of a CPort's `rxbuf` on are a function of their address:
those behind the bytes of the last transfer, and behind the buffer, are there to be read.
-/

namespace Phabos.Es2

open Library Switch

/-- The bytes from the start of a CPort's `rxbuf` on -/
abbrev RxBytes := ℕ → Byte

def lnul : Byte := 0x00

def strw : Byte := 0x01

def strr : Byte := 0x02

def srpt : Byte := 0x03

def nack : Byte := 0x04

def endp : Byte := 0x06

def hnul : Byte := 0xff

def eagain : Int := 11

def einval : Int := 22

def enomsg : Int := 35

/-- `ES2_CPORT_RX_MAX_SIZE` -/
def rxMaxSize : ℕ := 16 + 5 + 272 + 2

def switchWaitReplyLen : ℕ := 16

def switchWriteStatusNnull : ℕ := switchWaitReplyLen + 11

def wstatus0Txentfiforemain : Byte := 0x03

def wstatus1Txentfiforemain : Byte := 0xff

def wstatus2Txdatafiforemain : Byte := 0x7f

def wstatus3Lenerr : Byte := 0x40

def wstatus3Txentfifofull : Byte := 0x02

def wstatus3Txdatafifofull : Byte := 0x01

/-- The second half of `es2_transfer_check_write_status`, on the four bytes of the status -/
def parseStatus (status0 status1 status2 status3 : Byte) : Int :=
  let txEntRemain := be16 (status0 &&& wstatus0Txentfiforemain) (status1 &&& wstatus1Txentfiforemain)
  let txDataRemain := status2 &&& wstatus2Txdatafiforemain
  let lenErr : Bool := status3 &&& wstatus3Lenerr ≠ 0
  let txEntFull : Bool := status3 &&& wstatus3Txentfifofull ≠ 0
  let txDataFull : Bool := status3 &&& wstatus3Txdatafifofull ≠ 0
  if txEntRemain = 0 ∧ !txEntFull then - eproto
  else if txDataRemain = 0 ∧ !txDataFull then - eproto
  else if lenErr then - eio
  else if txEntFull then - eagain
  else if txDataFull then - eagain
  else 0

/-- The report that begins at `i`, with the addresses of the bytes that are read -/
def blockFound (statusBlock : RxBytes) (i : ℕ) : Int × List ℕ :=
  if be16 (statusBlock (i + 2)) (statusBlock (i + 3)) ≠ 4 then (- eproto, [i + 2, i + 3])
  else if statusBlock (i + 8) ≠ endp then (- eproto, [i + 2, i + 3, i + 8])
  else
    (parseStatus (statusBlock (i + 4)) (statusBlock (i + 5)) (statusBlock (i + 6)) (statusBlock (i + 7)),
      [i + 2, i + 3, i + 8, i + 4, i + 5, i + 6, i + 7])

/-- The search for the report -/
def findStatus (statusBlock : RxBytes) : (remaining i : ℕ) → Int × List ℕ
  | 0, _ => (- eproto, [])
  | remaining + 1, i =>
    let found :=
      if statusBlock i = strw then blockFound statusBlock i
      else if statusBlock i = hnul ∨ statusBlock i = lnul then findStatus statusBlock remaining (i + 1)
      else (- eproto, [])
    (found.1, i :: found.2)

/-- The return code, with the addresses of the bytes that are read -/
def es2TransferCheckWriteStatus (statusBlock : RxBytes) (size : ℕ) : Int × List ℕ :=
  findStatus statusBlock size 0

/-- A transfer over SPI into `rxbuf`, and what is done with it. -/
structure Transfer where
  /-- The count of bytes that are stored from the start of `rxbuf` on -/
  length : ℕ
  /-- The end of the bytes of `rxbuf` that are looked at -/
  looked : ℕ
  /-- The count of bytes that are stored at `rx_buf` -/
  copied : ℕ

/-- The message of a transfer that stores what the switch sends -/
def spiReceive (response : RxBytes) (length : ℕ) (rxbuf : RxBytes) : RxBytes :=
  fun address => if address < length then response address else rxbuf address

def srptSize : ℕ := 19 + 16

def srptReportSize : ℕ := 12

def srptReportHeader (cport : BitVec 32) : List Byte := [hnul, srpt, cport.setWidth 8, 0x00, 0x0c]

/-- The search for the header of the report -/
def findHeader (rxbuf : RxBytes) (cport : BitVec 32) : (remaining offset : ℕ) → Option ℕ
  | 0, _ => none
  | remaining + 1, offset =>
    if (List.range 5).map (fun i => rxbuf (offset + i)) = srptReportHeader cport then some offset
    else findHeader rxbuf cport remaining (offset + 1)

structure SrptReadStatusReport where
  rxFifoSize : ℕ
  txFifoSize : ℕ

/-- What `es2_read_status` returns, leaves at its `status` and at `rxbuf`, and its transfer -/
structure StatusRead where
  ret : Int
  status : Option SrptReadStatusReport
  rxbuf : RxBytes
  transfer : Transfer

def es2ReadStatus (response : RxBytes) (cport : BitVec 32) (rxbuf : RxBytes) : StatusRead :=
  let rxbuf := spiReceive response srptSize rxbuf
  match findHeader rxbuf cport (srptSize - srptReportSize) 0 with
  | none => ⟨- enomsg, none, rxbuf, srptSize, srptSize - srptReportSize - 1 + 5, 0⟩
  | some offset =>
    let raw := fun i => rxbuf (offset + 5 + i)
    -- The size is an `int` that becomes a `size_t`.
    ⟨0, some {
        txFifoSize := (be16 (raw 8) (raw 9)).toNat
        rxFifoSize := (2 ^ 32 + 576 - (be16 (raw 10) (raw 11)).toNat) % 2 ^ 32 },
      rxbuf, srptSize, offset + 5 + srptReportSize, 0⟩

/-- The scan of a reply: the address of the STRR or the NACK that ends it, and `null_rxbuf` -/
def scanReply (rxbuf : RxBytes) : (remaining i : ℕ) → (nullRxbuf : Bool) → Option ℕ × Bool
  | 0, _, nullRxbuf => (none, nullRxbuf)
  | remaining + 1, i, nullRxbuf =>
    let nullRxbuf := if rxbuf i ≠ lnul ∧ rxbuf i ≠ hnul then false else nullRxbuf
    if rxbuf i = strr ∨ rxbuf i = nack then (some i, nullRxbuf)
    else scanReply rxbuf remaining (i + 1) nullRxbuf

/-- `size` in `es2_read` -/
def readSize (rxSize : ℕ) : ℕ := (switchWaitReplyLen + rxSize + 7) % 2 ^ 32

/-- The length of the message that receives the reply -/
def replyLength (rxSize : ℕ) : ℕ := (readSize rxSize + 2 ^ 32 - 7) % 2 ^ 32

/-- `resp_len` of the reply that begins at `i` -/
def respLen (rxbuf : RxBytes) (i : ℕ) : ℕ := (be16 (rxbuf (i + 2)) (rxbuf (i + 3))).toNat

/-- What `es2_read` returns, and the bytes that it has copied to `rx_buf` -/
structure ReadEnd where
  ret : Int
  copied : Option (List Byte)

/-- What a turn of the loop of `es2_read` leaves. The loop goes on where it has no end. -/
structure ReadTurn where
  rxbuf : RxBytes
  transfer : Transfer
  ended : Option ReadEnd

/-- `if (null_rxbuf)` and the condition of the loop, after a turn in which no STRR was found -/
def notDone (nullRxbuf : Bool) : Option ReadEnd := if nullRxbuf then some ⟨- eio, none⟩ else none

def es2ReadTurn (rxBuf : Bool) (rxSize : ℕ) (response : RxBytes) (rxbuf : RxBytes) : ReadTurn :=
  let rxbuf := spiReceive response (replyLength rxSize) rxbuf
  if rxBuf = false then ⟨rxbuf, ⟨replyLength rxSize, 0, 0⟩, some ⟨0, none⟩⟩
  else match scanReply rxbuf (readSize rxSize) 0 true with
    | (some i, nullRxbuf) =>
      if rxbuf i = strr then
        ⟨rxbuf, ⟨replyLength rxSize, i + 4 + respLen rxbuf i, respLen rxbuf i⟩,
          some ⟨if nullRxbuf then - eio else 0,
            some ((List.range (respLen rxbuf i)).map fun j => rxbuf (i + 4 + j))⟩⟩
      else ⟨rxbuf, ⟨replyLength rxSize, i + 1, 0⟩, notDone nullRxbuf⟩
    | (none, nullRxbuf) => ⟨rxbuf, ⟨replyLength rxSize, readSize rxSize, 0⟩, notDone nullRxbuf⟩

/-- The loop of `es2_read`, from the transfer `n` of the stream of responses on. It returns its transfers. `rxBuf` says
whether `rx_buf` is not NULL. -/
def es2Read (rxBuf : Bool) (rxSize : ℕ) (responses : ℕ → RxBytes) :
    (fuel n : ℕ) → RxBytes → List Transfer × Option ReadEnd
  | 0, _, _ => ([], none)
  | fuel + 1, n, rxbuf =>
    let turn := es2ReadTurn rxBuf rxSize (responses n) rxbuf
    match turn.ended with
    | some ended => ([turn.transfer], some ended)
    | none =>
      let later := es2Read rxBuf rxSize responses fuel (n + 1) turn.rxbuf
      (turn.transfer :: later.1, later.2)

/-- What `es2_irq_fifo_rx` does with its transfers, the first of which reads the state of the FIFO. It returns them with
the size of the buffer of each, and its return code once it has one. -/
def es2IrqFifoRx (cportid : BitVec 32) (responses : ℕ → RxBytes) (fuel : ℕ) (rxbuf : RxBytes) :
    List (ℕ × Transfer) × Option Int :=
  if cportid ≠ 4 ∧ cportid ≠ 5 then ([], some (- einval))
  else
    let read := es2ReadStatus (responses 0) cportid rxbuf
    match read.status with
    | none => ([(0, read.transfer)], some (- eio))
    | some rpt =>
      let later := es2Read true rpt.rxFifoSize responses fuel 1 read.rxbuf
      ((0, read.transfer) :: later.1.map fun transfer => (rpt.rxFifoSize, transfer),
        later.2.map fun ended => if ended.ret ≠ 0 then - eio else 0)

end Phabos.Es2
