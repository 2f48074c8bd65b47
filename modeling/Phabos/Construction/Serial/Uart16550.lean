import Mathlib.Algebra.Ring.Nat
import Phabos.Construction.Serial.Tty

/-
This file embeds the transmit ring of drivers/serial/uart16550.c. The interrupt runs between any two accesses of a
writer to the ring and its indices. A writer that waits for the mutex has no step.
-/

namespace Phabos.Serial

/-- Where the writer with the mutex is in `uart16550_write` -/
inductive WritePlace
  /-- before the condition of the outer loop -/
  | looping
  /-- before the condition of the inner loop -/
  | testing (nextPos : Nat)
  /-- after `irq_pend` and before `semaphore_down` -/
  | downing (nextPos : Nat)
  /-- before `tty->tx_buffer[tty->tx_end++] = buffer[nwrite++]` -/
  | storing
  /-- after the first access of that statement, with the old index -/
  | halfway (index : Nat)
  /-- before the test of `tx_end` -/
  | wrapping
  | leaving
  deriving DecidableEq, Repr

structure Writer where
  task : Nat
  buffer : List Byte
  nwrite : Nat
  place : WritePlace
  deriving DecidableEq, Repr

/-- The configuration. The language leaves open whether the statement that stores a byte writes the slot or the index
first. -/
structure UartConfig where
  maxOutput : Nat
  fifoDepth : Nat
  slotFirst : Bool

/-- The output side of a `struct tty_device`. `calls` records the buffers of the write calls in the order of the mutex,
`stored` the bytes that are in the ring or have been, `sent` the writes of the transmit register, and `accesses` the
indices of the accesses to `tx_buffer`. -/
structure Uart where
  txBuffer : Nat → Byte
  txStart : Nat
  txEnd : Nat
  txSemaphore : BitVec 32
  writer : Option Writer
  calls : List (List Byte)
  stored : List Byte
  sent : List Byte
  accesses : List Nat

/-- `tty_register` -/
def uartRegister (txBuffer : Nat → Byte) : Uart := ⟨txBuffer, 0, 0, 0, none, [], [], [], []⟩

section Steps
variable (config : UartConfig)

/-- One round of the transmit loop of `uart16550_interrupt` -/
def Uart.sendOne (uart : Uart) : Uart :=
  { uart with
    sent := uart.sent ++ [uart.txBuffer uart.txStart]
    accesses := uart.accesses ++ [uart.txStart]
    txStart := if config.maxOutput ≤ uart.txStart + 1 then 0 else uart.txStart + 1
    txSemaphore := uart.txSemaphore + 1 }

/-- The transmit loop of `uart16550_interrupt` for a number of rounds -/
def transmitLoop : Nat → Uart → Uart
  | 0, uart => uart
  | rounds + 1, uart =>
    if uart.txStart ≠ uart.txEnd then transmitLoop rounds (uart.sendOne config) else uart

/-- The transmit part of `uart16550_interrupt`. The line status register says whether the FIFO is empty. -/
def Uart.interrupt (uart : Uart) (thre : Bool) : Uart :=
  if thre then transmitLoop config config.fifoDepth uart else uart

def Uart.moveTo (uart : Uart) (writer : Writer) (place : WritePlace) : Uart :=
  { uart with writer := some { writer with place } }

/-- The next byte of the buffer -/
def Writer.byte (writer : Writer) : Byte := writer.buffer.getD writer.nwrite 0

def Uart.storeSlot (uart : Uart) (index : Nat) (byte : Byte) : Uart :=
  { uart with txBuffer := Function.update uart.txBuffer index byte, accesses := uart.accesses ++ [index] }

def Uart.increaseEnd (uart : Uart) : Uart := { uart with txEnd := uart.txEnd + 1 }

/-- The first access of the statement that stores a byte -/
def Uart.storeFirst (uart : Uart) (writer : Writer) : Uart :=
  (if config.slotFirst then uart.storeSlot uart.txEnd writer.byte else uart.increaseEnd).moveTo writer
    (.halfway uart.txEnd)

/-- The second access of that statement -/
def Uart.storeSecond (uart : Uart) (writer : Writer) (index : Nat) : Uart :=
  { (if config.slotFirst then uart.increaseEnd else uart.storeSlot index writer.byte).moveTo
      { writer with nwrite := writer.nwrite + 1 } .wrapping with
    stored := uart.stored ++ [writer.byte] }

def Uart.wrapEnd (uart : Uart) (writer : Writer) : Uart :=
  { uart with txEnd := if config.maxOutput ≤ uart.txEnd then 0 else uart.txEnd }.moveTo writer .looping

def Uart.semaphoreDown (uart : Uart) (writer : Writer) (nextPos : Nat) : Uart :=
  { uart with txSemaphore := uart.txSemaphore - 1 }.moveTo writer (.testing nextPos)

/-- The next step of the writer -/
def Uart.advance (uart : Uart) (writer : Writer) : Option Uart :=
  match writer.place with
  | .looping =>
    if writer.nwrite < writer.buffer.length then
      some (uart.moveTo writer (.testing ((uart.txEnd + 1) % config.maxOutput)))
    else some (uart.moveTo writer .leaving)
  | .testing nextPos =>
    if uart.txStart = nextPos then some (uart.moveTo writer (.downing nextPos))
    else some (uart.moveTo writer .storing)
  | .downing nextPos => if uart.txSemaphore ≠ 0 then some (uart.semaphoreDown writer nextPos) else none
  | .storing => some (uart.storeFirst config writer)
  | .halfway index => some (uart.storeSecond config writer index)
  | .wrapping => some (uart.wrapEnd config writer)
  | .leaving => some { uart with writer := none }

inductive UartAction
  /-- A write gets the mutex. -/
  | write (task : Nat) (buffer : List Byte)
  /-- The writer takes a step. -/
  | advance
  | interrupt (thre : Bool)
  deriving DecidableEq, Repr

def uartStep (uart : Uart) : UartAction → Option Uart
  | .write task buffer =>
    match uart.writer with
    | none => some { uart with writer := some ⟨task, buffer, 0, .looping⟩, calls := uart.calls ++ [buffer] }
    | some _ => none
  | .advance =>
    match uart.writer with
    | none => none
    | some writer => uart.advance config writer
  | .interrupt thre => some (uart.interrupt config thre)

/-- The index has been increased, and it is outside of the ring, or its old slot has not been written. -/
def Uart.exposed (uart : Uart) : Bool :=
  match uart.writer.map Writer.place with
  | some .wrapping => decide (uart.txEnd = config.maxOutput)
  | some (.halfway _) => !config.slotFirst
  | _ => false

/-- An interrupt that finds the index so sends no more bytes than the ring holds, and the permits of its bytes do not wrap the
count of the semaphore. -/
def InTime (uart : Uart) : UartAction → Prop
  | .interrupt true => (uart.exposed config = true → config.fifoDepth ≤ uart.stored.length - uart.sent.length) ∧
      uart.txSemaphore.toNat + config.fifoDepth < 2 ^ 32
  | _ => True

instance (uart : Uart) (action : UartAction) : Decidable (InTime config uart action) :=
  match action with
  | .interrupt true => inferInstanceAs (Decidable (_ ∧ _))
  | .interrupt false | .write .. | .advance => isTrue trivial

end Steps

end Phabos.Serial
