import Phabos.Construction.Greybus.I2c

/-
This file embeds the driver of the I2C controller, drivers/i2c/dw.c: its globals, a turn of the loops over the messages
in the interrupt handler, and what the handler writes to the registers.
-/

namespace Phabos.DwI2c
open I2c

def EINVAL : Int := 22

def DW_I2C_TX_FIFO_DEPTH : Int := 8

def DW_I2C_RX_FIFO_DEPTH : Int := 8

def DW_I2C_INTR_RX_FULL : BitVec 32 := 0x0004

def DW_I2C_INTR_TX_EMPTY : BitVec 32 := 0x0010

def DW_I2C_INTR_TX_ABRT : BitVec 32 := 0x0040

def DW_I2C_INTR_STOP_DET : BitVec 32 := 0x0200

def DW_I2C_INTR_DEFAULT_MASK : BitVec 32 :=
  DW_I2C_INTR_RX_FULL ||| DW_I2C_INTR_TX_EMPTY ||| DW_I2C_INTR_TX_ABRT ||| DW_I2C_INTR_STOP_DET

def DW_I2C_STATUS_IDLE : BitVec 32 := 0x0

def DW_I2C_STATUS_WRITE_IN_PROGRESS : BitVec 32 := 0x1

def DW_I2C_STATUS_READ_IN_PROGRESS : BitVec 32 := 0x2

def DW_I2C_STATUS_TIMEOUT : BitVec 32 := 0x3

/-- The bit of `DW_I2C_DATA_CMD` that asks for a byte -/
def cmdRead : BitVec 32 := 1 <<< 8

def cmdStop : BitVec 32 := 1 <<< 9

def cmdRestart : BitVec 32 := 1 <<< 10

/-- A `uint8_t *` into the buffer of a message -/
structure Pointer where
  msg : ℕ
  offset : ℕ
  deriving DecidableEq, Repr

def Pointer.next (pointer : Pointer) : Pointer := { pointer with offset := pointer.offset + 1 }

def Pointer.byte (pointer : Pointer) (msgs : List I2cMsg) : UInt8 :=
  ((msgs[pointer.msg]?).bind fun msg => msg.buffer[pointer.offset]?).getD 0

/-- The globals of the driver, whose names start with `g_` -/
structure Globals where
  msgs : List I2cMsg
  txIndex : ℕ
  txLength : ℕ
  txBuffer : Pointer
  rxIndex : ℕ
  rxLength : ℕ
  rxBuffer : Pointer
  cmdErr : BitVec 32
  msgErr : Int
  status : BitVec 32
  abortSource : BitVec 32
  rxOutstanding : BitVec 32
  deriving DecidableEq, Repr

/-- Static storage is clear before the first transfer. -/
def Globals.clear : Globals := ⟨[], 0, 0, ⟨0, 0⟩, 0, 0, ⟨0, 0⟩, 0, 0, 0, 0, 0⟩

/-- What `dw_transfer` sets before it waits for the bus -/
def Globals.transfer (g : Globals) (msgs : List I2cMsg) : Globals :=
  { g with
    msgs := msgs, txIndex := 0, rxIndex := 0, rxOutstanding := 0
    cmdErr := 0, msgErr := 0, status := DW_I2C_STATUS_IDLE, abortSource := 0 }

/-- The locals of the inner loop of `tsb_i2c_transfer_msg` with `g_rx_outstanding`, and the values that it wrote to
`DW_I2C_DATA_CMD` -/
structure Fill where
  buffer : Pointer
  needRestart : Bool
  txAvail : Int
  rxAvail : Int
  rxOutstanding : BitVec 32
  written : List (BitVec 32)

/-- The inner loop of `tsb_i2c_transfer_msg`, for the last message or another one, with the length that is left. The
test of `rx_avail - g_rx_outstanding` is one of unsigned numbers. -/
def fillLoop (msgs : List I2cMsg) (read last : Bool) : ℕ → Fill → ℕ × Fill
  | 0, l => (0, l)
  | length + 1, l =>
    if 0 < l.txAvail ∧ 0 < l.rxAvail then
      let stop := if last = true ∧ length + 1 = 1 then cmdStop else 0
      let cmd := stop ||| if l.needRestart then cmdRestart else 0
      if read then
        if BitVec.ofInt 32 l.rxAvail - l.rxOutstanding = 0 then (length + 1, { l with needRestart := false })
        else fillLoop msgs read last length { l with
          needRestart := false
          txAvail := l.txAvail - 1
          rxAvail := l.rxAvail - 1
          rxOutstanding := l.rxOutstanding + 1
          written := l.written ++ [cmd ||| cmdRead] }
      else fillLoop msgs read last length { l with
        buffer := l.buffer.next
        needRestart := false
        txAvail := l.txAvail - 1
        written := l.written ++ [cmd ||| BitVec.ofNat 32 (l.buffer.byte msgs).toNat] }
    else (length + 1, l)

/-- The locals of `tsb_i2c_transfer_msg` -/
structure Transfer where
  addr : BitVec 16
  buffer : Pointer
  length : ℕ
  needRestart : Bool
  deriving DecidableEq, Repr

/-- The declarations of `tsb_i2c_transfer_msg` -/
def Globals.transferMsg (g : Globals) : Transfer :=
  ⟨((g.msgs[g.txIndex]?).map I2cMsg.addr).getD 0, g.txBuffer, g.txLength, false⟩

/-- The start of a new message in a turn -/
def Transfer.init (l : Transfer) (g : Globals) (msg : I2cMsg) : Transfer :=
  if g.status &&& DW_I2C_STATUS_WRITE_IN_PROGRESS = 0 then
    { l with buffer := ⟨g.txIndex, 0⟩, length := msg.buffer.length, needRestart := l.needRestart || decide (0 < g.txIndex) }
  else l

/-- A turn of the outer loop of `tsb_i2c_transfer_msg` with the levels that it reads: what it writes to
`DW_I2C_DATA_CMD`, and the locals of the next turn if there is one -/
def transferTurn (g : Globals) (l : Transfer) (txflr rxflr : ℕ) : List (BitVec 32) × Globals × Option Transfer :=
  match g.msgs[g.txIndex]? with
  | none => ([], g, none)
  | some msg =>
    if msg.addr ≠ l.addr then ([], { g with msgErr := - EINVAL }, none)
    else if msg.buffer.length = 0 then ([], { g with msgErr := - EINVAL }, none)
    else
      let l := l.init g msg
      let fill : Fill := ⟨l.buffer, l.needRestart, DW_I2C_TX_FIFO_DEPTH - txflr, DW_I2C_RX_FIFO_DEPTH - rxflr,
        g.rxOutstanding, []⟩
      let (length, fill) := fillLoop g.msgs msg.read (decide (g.txIndex = g.msgs.length - 1)) l.length fill
      let g := { g with txBuffer := fill.buffer, txLength := length, rxOutstanding := fill.rxOutstanding }
      if 0 < length then (fill.written, { g with status := g.status ||| DW_I2C_STATUS_WRITE_IN_PROGRESS }, none)
      else
        (fill.written,
          { g with status := g.status &&& ~~~ DW_I2C_STATUS_WRITE_IN_PROGRESS, txIndex := g.txIndex + 1 },
          some ⟨l.addr, fill.buffer, length, fill.needRestart⟩)

/-- The mask that `tsb_i2c_transfer_msg` writes at its end -/
def Globals.intrMask (g : Globals) : BitVec 32 :=
  if g.msgErr ≠ 0 then 0
  else if g.txIndex = g.msgs.length then DW_I2C_INTR_DEFAULT_MASK &&& ~~~ DW_I2C_INTR_TX_EMPTY
  else DW_I2C_INTR_DEFAULT_MASK

/-- The inner loop of `tsb_dw_read` over the bytes that the receive FIFO had: the length that is left, where the
next byte goes, what the FIFO still has, and where each byte went -/
def readLoop : ℕ → Pointer → List UInt8 → ℕ × Pointer × List UInt8 × List (Pointer × UInt8)
  | length + 1, buffer, byte :: rxFifo =>
    let (left, next, fifo, stored) := readLoop length buffer.next rxFifo
    (left, next, fifo, (buffer, byte) :: stored)
  | length, buffer, rxFifo => (length, buffer, rxFifo, [])

/-- A turn of the outer loop of `tsb_dw_read`: what it stores, what the receive FIFO still has, and whether there is
a next turn -/
def readTurn (g : Globals) (rxFifo : List UInt8) : List (Pointer × UInt8) × List UInt8 × Globals × Bool :=
  match g.msgs[g.rxIndex]? with
  | none => ([], rxFifo, g, false)
  | some msg =>
    if msg.read = false then ([], rxFifo, { g with rxIndex := g.rxIndex + 1 }, true)
    else
      let (len, buffer) :=
        if g.status &&& DW_I2C_STATUS_READ_IN_PROGRESS = 0 then (msg.buffer.length, ⟨g.rxIndex, 0⟩)
        else (g.rxLength, g.rxBuffer)
      let (len, buffer, rxFifo, stored) := readLoop len buffer rxFifo
      let g := { g with rxOutstanding := g.rxOutstanding - BitVec.ofNat 32 stored.length }
      if 0 < len then
        (stored, rxFifo, { g with
          status := g.status ||| DW_I2C_STATUS_READ_IN_PROGRESS, rxLength := len, rxBuffer := buffer }, false)
      else
        (stored, rxFifo, { g with
          status := g.status &&& ~~~ DW_I2C_STATUS_READ_IN_PROGRESS, rxIndex := g.rxIndex + 1 }, true)

/-
This part embeds a transfer of drivers/i2c/dw.c over its interrupts, beside a controller that moves on between any two
reads of its registers: it takes the commands in order, and each read command is answered by a byte.
-/

/-- The depth of both FIFOs of the controller -/
def fifoDepth : ℕ := 8

/-- Where `dw_interrupt` is -/
inductive Place where
  | away
  /-- Before a turn of the loop in `tsb_dw_read` -/
  | reading (stat : BitVec 32)
  /-- Before a turn of `tsb_i2c_transfer_msg` reads `DW_I2C_TXFLR` -/
  | transferring (l : Transfer)
  /-- Before the turn reads `DW_I2C_RXFLR` -/
  | filling (l : Transfer) (txflr : ℕ)
  deriving DecidableEq, Repr

/-- The commands in the transmit FIFO and the bytes in the receive FIFO, the read commands that the controller has taken
and not answered, what was written to `DW_I2C_DATA_CMD`, the answers, and where each byte was stored -/
structure Stream where
  g : Globals
  intrMask : BitVec 32
  place : Place
  txFifo : List (BitVec 32)
  unanswered : ℕ
  rxFifo : List UInt8
  written : List (BitVec 32)
  answers : List UInt8
  stored : List (Pointer × UInt8)
  deriving DecidableEq, Repr

/-- After `tsb_i2c_start_transfer` -/
def Stream.start (g : Globals) (msgs : List I2cMsg) : Stream :=
  ⟨g.transfer msgs, DW_I2C_INTR_DEFAULT_MASK, .away, [], 0, [], [], [], []⟩

/-- Whether a command asks for a byte -/
def isReadCommand (cmd : BitVec 32) : Bool := cmd &&& cmdRead ≠ 0

/-- `dw_interrupt` after `tsb_dw_read` -/
def Stream.afterRead (s : Stream) (stat : BitVec 32) : Stream :=
  { s with place := if stat &&& DW_I2C_INTR_TX_EMPTY ≠ 0 then .transferring s.g.transferMsg else .away }

/-- The next step of `dw_interrupt`. A command that finds no room in the transmit FIFO is lost. -/
def Stream.handler (s : Stream) : Option Stream :=
  match s.place with
  | .away => none
  | .reading stat =>
    let (stored, rxFifo, g, goesOn) := readTurn s.g s.rxFifo
    let s := { s with g := g, rxFifo := rxFifo, stored := s.stored ++ stored }
    some (if goesOn then s else s.afterRead stat)
  | .transferring l => some { s with place := .filling l s.txFifo.length }
  | .filling l txflr =>
    let (written, g, next) := transferTurn s.g l txflr s.rxFifo.length
    let s := { s with g := g, txFifo := (s.txFifo ++ written).take fifoDepth, written := s.written ++ written }
    match next with
    | some l => some { s with place := .transferring l }
    | none => some { s with place := .away, intrMask := g.intrMask }

inductive Event where
  /-- `dw_interrupt` reads the bits of `DW_I2C_INTR_STAT`. -/
  | interrupt (stat : BitVec 32)
  /-- The next step of the handler -/
  | handler
  /-- The controller takes a command from the transmit FIFO. -/
  | take
  /-- The controller has the byte of a read command. -/
  | answer (byte : UInt8)
  deriving DecidableEq, Repr

/-- A byte that finds no room in the receive FIFO is lost. -/
def step (s : Stream) : Event → Option Stream
  | .interrupt stat =>
    if s.place = .away ∧ stat &&& s.intrMask = stat ∧ stat &&& DW_I2C_INTR_TX_ABRT = 0 then
      some (if stat &&& DW_I2C_INTR_RX_FULL ≠ 0 then { s with place := .reading stat } else s.afterRead stat)
    else none
  | .handler => s.handler
  | .take =>
    match s.txFifo with
    | [] => none
    | cmd :: rest =>
      some { s with txFifo := rest, unanswered := s.unanswered + if isReadCommand cmd then 1 else 0 }
  | .answer byte =>
    if 0 < s.unanswered then
      some { s with
        unanswered := s.unanswered - 1
        rxFifo := if s.rxFifo.length < fifoDepth then s.rxFifo ++ [byte] else s.rxFifo
        answers := s.answers ++ [byte] }
    else none

/-
This part embeds how a transfer of drivers/i2c/dw.c ends: `dw_transfer` over its steps, the whole of `dw_interrupt` and
`dw_timeout`. The interrupt reads any levels and bytes.
-/

open I2c (I2cMsg)

def EIO : Int := 5

def EAGAIN : Int := 11

def ETIMEDOUT : Int := 116

def DW_I2C_INTR_ACTIVITY : BitVec 32 := 0x0100

def DW_I2C_ERR_TX_ABRT : BitVec 32 := 0x1

def DW_I2C_TX_ABRT_NOACK : BitVec 32 := 0x1f

def DW_I2C_TX_ARB_LOST : BitVec 32 := 1 <<< 12

def DW_I2C_TX_ABRT_GCALL_READ : BitVec 32 := 1 <<< 5

/-- `tsb_i2c_handle_tx_abort` -/
def handleTxAbort (abortSource : BitVec 32) : Int :=
  if abortSource &&& DW_I2C_TX_ABRT_NOACK ≠ 0 then - EIO
  else if abortSource &&& DW_I2C_TX_ARB_LOST ≠ 0 then - EAGAIN
  else if abortSource &&& DW_I2C_TX_ABRT_GCALL_READ ≠ 0 then - EINVAL
  else - EIO

/-- What the registers hold during an interrupt: the raw status, the abort source, the bytes in the receive FIFO at each
turn of `tsb_dw_read`, and both levels at each turn of `tsb_i2c_transfer_msg`. The turns are counted down. -/
structure Registers where
  raw : BitVec 32
  abortSource : BitVec 32
  rxFifo : ℕ → List UInt8
  levels : ℕ → ℕ × ℕ

/-- The turns of `tsb_dw_read`, when so many messages are left -/
def readTurns (rxFifo : ℕ → List UInt8) : ℕ → Globals → Globals
  | 0, g => g
  | left + 1, g =>
    let (_, _, g, goesOn) := readTurn g (rxFifo left)
    if goesOn then readTurns rxFifo left g else g

/-- `tsb_dw_read` -/
def Globals.dwRead (g : Globals) (rxFifo : ℕ → List UInt8) : Globals :=
  readTurns rxFifo (g.msgs.length - g.rxIndex) g

/-- The turns of `tsb_i2c_transfer_msg`, when so many messages are left -/
def transferTurns (levels : ℕ → ℕ × ℕ) : ℕ → Globals → Transfer → Globals
  | 0, g, _ => g
  | left + 1, g, l =>
    match transferTurn g l (levels left).1 (levels left).2 with
    | (_, g, some l) => transferTurns levels left g l
    | (_, g, none) => g

/-- `tsb_i2c_transfer_msg` -/
def Globals.transferMsgs (g : Globals) (levels : ℕ → ℕ × ℕ) : Globals :=
  transferTurns levels (g.msgs.length - g.txIndex) g g.transferMsg

/-- Where the call of `dw_transfer` that holds `g_mutex` is -/
inductive Step where
  /-- `tsb_i2c_wait_bus_ready` -/
  | bus
  /-- `tsb_i2c_start_transfer`, after the watchdog was started -/
  | start
  /-- `semaphore_lock` -/
  | wait
  /-- `watchdog_cancel` -/
  | cancel
  /-- The test of `g_status` -/
  | test
  /-- `tsb_i2c_disable` and the tests of the errors -/
  | disable
  deriving DecidableEq, Repr

/-- What a call returned, the permits that it took and that were produced during it, and what happened during it -/
structure Return where
  ret : Int
  taken : ℕ
  produced : ℕ
  stopped : Bool
  aborted : Bool
  msgErr : Int
  timedOut : Bool
  deriving DecidableEq, Repr

/-- The driver, with `DW_I2C_ENABLE` and `DW_I2C_INTR_MASK`, the count of `g_wait`, whether `g_timeout` runs, and what
happened since the present call began. -/
structure Driver where
  g : Globals
  enabled : Bool
  intrMask : BitVec 32
  permits : ℕ
  armed : Bool
  call : Option Step
  produced : ℕ
  stopped : Bool
  aborted : Bool
  timedOut : Bool
  returns : List Return

/-- After `dw_probe` -/
def Driver.probed (g : Globals) : Driver := ⟨g, false, 0, 0, false, none, 0, false, false, false, []⟩

section Driver
variable (s : Driver)

/-- `semaphore_unlock` -/
def Driver.unlock : Driver := { s with permits := s.permits + 1, produced := s.produced + 1 }

/-- The call returns. -/
def Driver.return (ret : Int) (taken : ℕ) : Driver :=
  { s with
    call := none
    returns := s.returns ++
      [(⟨ret, taken, s.produced, s.stopped, s.aborted, s.g.msgErr, s.timedOut⟩ : Return)] }

/-- `tsb_i2c_disable` -/
def Driver.disable : Driver := { s with enabled := false, intrMask := 0 }

/-- What `dw_interrupt` does for the unmasked bits, before it may release the semaphore -/
def Driver.handle (stat : BitVec 32) (registers : Registers) : Driver :=
  if stat &&& DW_I2C_INTR_TX_ABRT ≠ 0 then
    { s with
      g := { s.g with
        abortSource := registers.abortSource, cmdErr := s.g.cmdErr ||| DW_I2C_ERR_TX_ABRT
        status := DW_I2C_STATUS_IDLE }
      intrMask := 0
      aborted := true }
  else
    let g := if stat &&& DW_I2C_INTR_RX_FULL ≠ 0 then s.g.dwRead registers.rxFifo else s.g
    if stat &&& DW_I2C_INTR_TX_EMPTY ≠ 0 then
      let g := g.transferMsgs registers.levels
      { s with g := g, intrMask := g.intrMask }
    else { s with g := g }

/-- `dw_interrupt` -/
def Driver.interrupt (registers : Registers) : Driver :=
  if s.enabled = false ∨ registers.raw &&& ~~~ DW_I2C_INTR_ACTIVITY = 0 then s
  else
    let stat := registers.raw &&& s.intrMask
    let s := s.handle stat registers
    let s := if stat &&& DW_I2C_INTR_STOP_DET ≠ 0 then { s with stopped := true } else s
    if stat &&& (DW_I2C_INTR_TX_ABRT ||| DW_I2C_INTR_STOP_DET) ≠ 0 ∨ s.g.msgErr ≠ 0 then s.unlock else s

/-- `dw_timeout` -/
def Driver.timeout : Driver :=
  let s := { s with armed := false }
  if s.g.status ≠ DW_I2C_STATUS_IDLE then
    Driver.unlock { s with g := { s.g with status := DW_I2C_STATUS_TIMEOUT }, timedOut := true }
  else s

/-- What `dw_transfer` returns after `tsb_i2c_disable` -/
def Globals.result (g : Globals) : Int :=
  if g.msgErr ≠ 0 then g.msgErr
  else if g.cmdErr = 0 then 0
  else if g.cmdErr = DW_I2C_ERR_TX_ABRT then handleTxAbort g.abortSource
  else - EIO

/-- The next step of the call -/
def Driver.transfer (ready : Bool) : Option Driver :=
  s.call.bind fun
    | .bus => some (if ready then { s with armed := true, call := some .start } else s.return (- ETIMEDOUT) 0)
    | .start => some { s with enabled := true, intrMask := DW_I2C_INTR_DEFAULT_MASK, call := some .wait }
    | .wait => if 0 < s.permits then some { s with permits := s.permits - 1, call := some .cancel } else none
    | .cancel => some { s with armed := false, call := some .test }
    | .test =>
      if s.g.status = DW_I2C_STATUS_TIMEOUT then some (s.disable.return (- ETIMEDOUT) 1)
      else some { s with call := some .disable }
    | .disable => some (s.disable.return s.g.result 1)

end Driver

namespace Driver

inductive Event where
  /-- `dw_transfer` is called and gets `g_mutex`. -/
  | call (msgs : List I2cMsg)
  /-- The next step of the call, and whether the bus is ready if that is asked -/
  | transfer (ready : Bool)
  | interrupt (registers : Registers)
  | timeout

def step (s : Driver) : Event → Option Driver
  | .call msgs =>
    if s.call = none then
      some { s with
        g := s.g.transfer msgs, call := some .bus
        produced := 0, stopped := false, aborted := false, timedOut := false }
    else none
  | .transfer ready => s.transfer ready
  | .interrupt registers => some (s.interrupt registers)
  | .timeout => if s.armed then some s.timeout else none

end Driver

end Phabos.DwI2c
