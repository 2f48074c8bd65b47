import Phabos.Construction.Ara.Device

/-
This file embeds the audio data path in src/arch/arm/mach-tsb/i2s.c: the functions that move words between a ring of
buffers and the FIFO of a block. The two directions differ in the values that `Block` gives. A run of
`tsb_i2s_tx_data` or `tsb_i2s_rx_data` is a sequence of steps, as its callbacks let the client take its entries.
-/

namespace Phabos.I2s
open Ara Library

def EIO : Int := 5

def EINVAL : Int := 22

abbrev Word := BitVec 32

/-- `enum device_i2s_byte_order` -/
inductive ByteOrder where
  | na
  | be
  | le
  deriving DecidableEq, Repr

/-- The part of `struct device_i2s_configuration` that the data path reads -/
structure Config where
  byteOrder : ByteOrder
  bytesPerChannel : ℕ
  deriving DecidableEq, Repr

/-- The byte orders and sample sizes in `tsb_i2s_config_table` -/
def Config.Supported (config : Config) : Prop :=
  config.byteOrder ∈ [ByteOrder.be, .le] ∧ config.bytesPerChannel ∈ [1, 2, 4]

instance (config : Config) : Decidable config.Supported := inferInstanceAs (Decidable (_ ∧ _))

/-- `enum device_i2s_event` -/
inductive Event where
  | none
  | unspecified
  | txComplete
  | rxComplete
  | underrun
  | overrun
  | clocking
  | dataLen
  deriving DecidableEq, Repr

def TSB_I2S_REG_INT_INT : Word := 1

def TSB_I2S_REG_INT_OR : Word := 2

def TSB_I2S_REG_INT_UR : Word := 4

def TSB_I2S_REG_INT_LRCK : Word := 8

def TSB_I2S_REG_INT_ERROR_MASK : Word := TSB_I2S_REG_INT_LRCK ||| TSB_I2S_REG_INT_UR ||| TSB_I2S_REG_INT_OR

/-- `rev`: the bytes of a word in the other order -/
def swap32 (x : Word) : Word :=
  be32 (x.setWidth 8) ((x >>> 8).setWidth 8) ((x >>> 16).setWidth 8) ((x >>> 24).setWidth 8)

/-- `hw[0] = __swap32(hw[0])` -/
def swapHalf (hw : BitVec 16) : BitVec 16 := (swap32 (hw.setWidth 32)).setWidth 16

def tsbI2sFifoData (config : Config) (w : Word) : Word :=
  if config.byteOrder = .be then
    match config.bytesPerChannel with
    | 2 => swapHalf ((w >>> 16).setWidth 16) ++ swapHalf (w.setWidth 16)
    | 3 | 4 => if config.byteOrder = .be then swap32 w else w
    | _ => w
  else w

def tsbI2sIntstat2event (intstat : Word) : Event :=
  if intstat &&& TSB_I2S_REG_INT_ERROR_MASK = 0 then .none
  else if intstat &&& TSB_I2S_REG_INT_OR ≠ 0 then .overrun
  else if intstat &&& TSB_I2S_REG_INT_UR ≠ 0 then .underrun
  else if intstat &&& TSB_I2S_REG_INT_LRCK ≠ 0 then .clocking
  else .unspecified

/-- The block that sends and the block that receives -/
inductive Block where
  | so
  | si
  deriving DecidableEq, Repr

namespace Block

/-- Whether an entry belongs to the driver -/
def isDrivers : Block → RingBuf → Bool
  | so => RingBuf.isConsumers
  | si => RingBuf.isProducers

/-- The bytes of an entry that are to be moved -/
def room : Block → RingBuf → ℕ
  | so => RingBuf.len
  | si => RingBuf.space

/-- Whether nothing of an entry is left to be moved -/
def isDone : Block → RingBuf → Bool
  | so => RingBuf.isEmpty
  | si => RingBuf.isFull

/-- Some bytes of an entry have been moved. -/
def advance : Block → RingBuf → ℕ → RingBuf
  | so => RingBuf.pull
  | si => RingBuf.put

/-- The entry goes back to the client. -/
def giveBack : Block → RingBuf → RingBuf
  | so => fun rb => rb.reset.pass
  | si => RingBuf.pass

def complete : Block → Event
  | so => .txComplete
  | si => .rxComplete

/-- The word that is written to or read from the FIFO, and the entry after it. A read gives the word `fifo`. -/
def move (config : Config) : Block → RingBuf → ℕ → Word → Word × RingBuf
  | so, rb, i, _ => (tsbI2sFifoData config (le32 (ByteMemory.read rb.bytes (rb.head + i) 4)), rb)
  | si, rb, i, fifo =>
    (fifo, { rb with bytes := ByteMemory.write rb.bytes (rb.tail + i) (le32Bytes (tsbI2sFifoData config fifo)) })

end Block

/-- Where the driver is -/
inductive Place where
  | away
  /-- `tsb_i2s_tx_data` or `tsb_i2s_rx_data` has just returned. -/
  | returned (ret : Int)
  /-- Before the test of the `while` loop -/
  | loop
  /-- Before the test of the `for` loop -/
  | fifo (i : ℕ)
  /-- In the callback for an entry that is complete -/
  | completed
  /-- In the callback for an error -/
  | failed (ret : Int)
  deriving DecidableEq, Repr

/-- What can be seen of the driver: words at the FIFO, entries that go back to the client, and completion callbacks -/
inductive Out where
  | word (w : Word)
  | passed (entry : ℕ) (rb : RingBuf)
  | callback (entry : ℕ) (event : Event)

/-- The ring, the present entry, the interrupt mask of the block, what was seen, the errors, and the entries as they were
handed to the driver -/
structure Info where
  ring : ℕ → RingBuf
  rb : ℕ
  place : Place
  intmask : Word
  log : List Out
  errors : List Event
  handed : ℕ → List RingBuf

/-- A block with its configuration, the number of the entries in its ring, and whether the client has a callback -/
structure Port where
  block : Block
  config : Config
  entries : ℕ
  callback : Bool
  deriving DecidableEq, Repr

namespace Info

def start (port : Port) (ring : ℕ → RingBuf) (first : ℕ) (intmask : Word) : Info :=
  { ring := ring
    rb := first
    place := .away
    intmask := intmask
    log := []
    errors := []
    handed := fun entry => if port.block.isDrivers (ring entry) then [ring entry] else [] }

def maskIrqs (s : Info) (mask : Word) : Info := { s with intmask := s.intmask ||| mask }

def unmaskIrqs (s : Info) (mask : Word) : Info := { s with intmask := s.intmask &&& ~~~ mask }

/-- What `tsb_i2s_stop_transmitter` and `tsb_i2s_stop_receiver` do to the interrupts -/
def stop (s : Info) (event : Event) : Info :=
  let s := s.maskIrqs (TSB_I2S_REG_INT_LRCK ||| TSB_I2S_REG_INT_UR ||| TSB_I2S_REG_INT_OR ||| TSB_I2S_REG_INT_INT)
  { s with errors := s.errors ++ [event] }

/-- The end of a run -/
def finish (s : Info) (ret : Int) : Info := { s.maskIrqs TSB_I2S_REG_INT_INT with place := .returned ret }

/-- A run that has met an error -/
def fail (port : Port) (s : Info) (event : Event) (ret : Int) : Info :=
  if port.callback then { s.stop event with place := .failed ret } else (s.stop event).finish ret

def setEntry (s : Info) (entry : ℕ) (rb : RingBuf) : Info := { s with ring := Function.update s.ring entry rb }

/-- `ring_buf_get_next` -/
def getNext (port : Port) (entry : ℕ) : ℕ := (entry + 1) % port.entries

/-- The `while` loop goes on with the next entry. -/
def next (port : Port) (s : Info) : Info := { s with rb := getNext port s.rb, place := .loop }

/-- After the `for` loop without an error -/
def afterFifo (port : Port) (s : Info) (i : ℕ) : Info :=
  let rb := port.block.advance (s.ring s.rb) i
  if port.block.isDone rb = false then
    { (s.setEntry s.rb rb).unmaskIrqs TSB_I2S_REG_INT_INT with place := .returned 0 }
  else
    let rb := port.block.giveBack rb
    let s := { s.setEntry s.rb rb with log := s.log ++ [Out.passed s.rb rb] }
    if port.callback then { s with log := s.log ++ [Out.callback s.rb port.block.complete], place := .completed }
    else s.next port

/-- A turn of the `for` loop of `tsb_i2s_fill_fifo` or `tsb_i2s_drain_fifo`, whose reading of INTSTAT is `intstat` -/
def fifoTurn (port : Port) (s : Info) (i : ℕ) (intstat fifo : Word) : Info :=
  if intstat &&& TSB_I2S_REG_INT_ERROR_MASK ≠ 0 then
    (s.setEntry s.rb (port.block.advance (s.ring s.rb) i)).fail port (tsbI2sIntstat2event intstat) (- EIO)
  else if intstat &&& TSB_I2S_REG_INT_INT = 0 then s.afterFifo port i
  else
    let moved := port.block.move port.config (s.ring s.rb) i fifo
    { s.setEntry s.rb moved.2 with log := s.log ++ [Out.word moved.1], place := .fifo (i + 4) }

/-- `tsb_i2s_tx_data` or `tsb_i2s_rx_data`, from the test of the `while` loop to the `for` loop -/
def dataTurn (port : Port) (s : Info) : Info :=
  if port.block.isDrivers (s.ring s.rb) then
    if port.block.room (s.ring s.rb) % 4 ≠ 0 then s.fail port .dataLen (- EINVAL) else { s with place := .fifo 0 }
  else s.finish 0

def tsbI2sFillFifo (port : Port) : Info → ℕ → Word → Word → Info := fifoTurn { port with block := .so }

def tsbI2sDrainFifo (port : Port) : Info → ℕ → Word → Word → Info := fifoTurn { port with block := .si }

def tsbI2sTxData (port : Port) : Info → Info := dataTurn { port with block := .so }

def tsbI2sRxData (port : Port) : Info → Info := dataTurn { port with block := .si }

/-- `tsb_i2s_irq_so_handler` or `tsb_i2s_irq_si_handler` -/
def irqHandler (s : Info) (intstat : Word) : Info :=
  if intstat &&& TSB_I2S_REG_INT_INT ≠ 0 then { s with place := .loop } else s

/-- `tsb_i2s_irq_so_err_handler` or `tsb_i2s_irq_si_err_handler`; its callback is called by a client that is away. -/
def irqErrHandler (s : Info) (intstat : Word) : Info :=
  if tsbI2sIntstat2event intstat = .none then s else { s.stop (tsbI2sIntstat2event intstat) with place := .away }

end Info

inductive Action where
  /-- `tsb_i2s_tx_data` or `tsb_i2s_rx_data` is called. -/
  | call
  | interrupt (intstat : Word)
  | errorInterrupt (intstat : Word)
  /-- The driver goes on. -/
  | proceed
  /-- The driver reads INTSTAT, and may read the FIFO. -/
  | reading (intstat fifo : Word)
  /-- The client changes an entry that belongs to it, and may hand it to the driver. -/
  | client (entry : ℕ) (rb : RingBuf)
  | callbackReturns

/-- Whether the driver is in no run -/
def Place.isAway : Place → Bool
  | .away | .returned _ => true
  | _ => false

/-- Whether the client can run -/
def Place.isClients : Place → Bool
  | .away | .returned _ | .completed | .failed _ => true
  | .loop | .fifo _ => false

/-- The place after a step of the client -/
def Place.afterClient : Place → Place
  | .returned _ => .away
  | place => place

def step (port : Port) (s : Info) : Action → Option Info
  | .call => if s.place.isAway then some { s with place := .loop } else none
  | .interrupt intstat => if s.place.isAway then some (s.irqHandler intstat) else none
  | .errorInterrupt intstat => if s.place.isAway then some (s.irqErrHandler intstat) else none
  | .proceed =>
    match s.place with
    | .loop =>
      match port.block with
      | .so => some (s.tsbI2sTxData port)
      | .si => some (s.tsbI2sRxData port)
    | .fifo i => if i < port.block.room (s.ring s.rb) then none else some (s.afterFifo port i)
    | _ => none
  | .reading intstat fifo =>
    match s.place with
    | .fifo i =>
      if i < port.block.room (s.ring s.rb) then
        match port.block with
        | .so => some (s.tsbI2sFillFifo port i intstat fifo)
        | .si => some (s.tsbI2sDrainFifo port i intstat fifo)
      else none
    | _ => none
  | .client entry rb =>
    if s.place.isClients ∧ entry < port.entries ∧ port.block.isDrivers (s.ring entry) = false then
      some { s.setEntry entry rb with
        place := s.place.afterClient
        handed := if port.block.isDrivers rb then
          Function.update s.handed entry (s.handed entry ++ [rb]) else s.handed }
    else none
  | .callbackReturns =>
    match s.place with
    | .completed => some (s.next port)
    | .failed ret => some (s.finish ret)
    | _ => none

end Phabos.I2s
