import Phabos.Library.ByteMemory

/-
This file embeds the receive stream of drivers/greybus/ap/uart.c. Any number of reads are in progress, each with a
step for every access to what they share. One task handles the requests. The semaphore is its count.
-/

namespace Phabos.ApUart

open Library

/-- `sizeof(struct gb_uart_receive_data_request)` -/
def requestSize : Nat := 2

/-- `le16_to_cpu(req->size)` -/
def reqSize (payload : List UInt8) : Nat := le16 payload 0

/-- `req->data`, up to its size -/
def reqData (payload : List UInt8) : List UInt8 := (payload.drop requestSize).take (reqSize payload)

/-- Where a read is in `gb_uart_read`. An entry has the number of its request. -/
inductive Place
  /-- before or in `semaphore_down` -/
  | down
  | fetch
  | measure (entry : Nat)
  | copy (entry nread : Nat)
  | advance (entry nread : Nat)
  | test (entry nread : Nat)
  | unlink (entry nread : Nat)
  | release (entry nread : Nat)
  | done (nread : Nat)
  /-- The first entry of an empty fifo is not an entry. -/
  | lost
  deriving DecidableEq, Repr

structure Read where
  count : Nat
  place : Place
  deriving DecidableEq, Repr

/-- The driver, with its accepted requests, the reads that were called, the bytes that they have copied and the entries
whose operations they have released -/
structure Uart where
  requests : List (List UInt8)
  offset : Nat → Nat
  fifo : List Nat
  permits : Nat
  /-- The handler is between `list_add` and `semaphore_up`. -/
  listed : Bool
  reads : List Read
  bytes : List UInt8
  released : List Nat

/-- `gb_uart_probe` -/
def gbUartProbe : Uart := ⟨[], fun _ => 0, [], 0, false, [], [], []⟩

def Uart.payload (u : Uart) (entry : Nat) : List UInt8 := u.requests.getD entry []

/-- `gb_uart_rx_data` up to `list_add` -/
def Uart.rxData (u : Uart) (payload : List UInt8) : Uart :=
  if payload.length < requestSize then u
  else if payload.length < requestSize + reqSize payload then u
  else { u with
    requests := u.requests ++ [payload]
    offset := Function.update u.offset u.requests.length 0
    fifo := u.fifo ++ [u.requests.length]
    listed := true }

def Uart.move (u : Uart) (index : Nat) (read : Read) (place : Place) : Uart :=
  { u with reads := u.reads.set index ⟨read.count, place⟩ }

/-- `MIN(count, le16_to_cpu(req->size) - uart_buffer->offset)` on unsigned numbers -/
def Uart.nread (u : Uart) (count entry : Nat) : Nat :=
  min count ((reqSize (u.payload entry) + 2 ^ 32 - u.offset entry) % 2 ^ 32)

def Uart.copyBytes (u : Uart) (entry nread : Nat) : Uart :=
  { u with bytes := u.bytes ++ ((u.payload entry).drop (requestSize + u.offset entry)).take nread }

def Uart.addOffset (u : Uart) (entry nread : Nat) : Uart :=
  { u with offset := Function.update u.offset entry (u.offset entry + nread) }

/-- The next step of a read -/
def Uart.advance (u : Uart) (index : Nat) (read : Read) : Option Uart :=
  match read.place with
  | .down =>
    if u.permits = 0 then none else some ({ u with permits := u.permits - 1 }.move index read .fetch)
  | .fetch =>
    match u.fifo with
    | [] => some (u.move index read .lost)
    | entry :: _ => some (u.move index read (.measure entry))
  | .measure entry => some (u.move index read (.copy entry (u.nread read.count entry)))
  | .copy entry nread => some ((u.copyBytes entry nread).move index read (.advance entry nread))
  | .advance entry nread => some ((u.addOffset entry nread).move index read (.test entry nread))
  | .test entry nread =>
    if u.offset entry ≥ reqSize (u.payload entry) then some (u.move index read (.unlink entry nread))
    else some (u.move index read (.done nread))
  | .unlink entry nread => some ({ u with fifo := u.fifo.erase entry }.move index read (.release entry nread))
  | .release entry nread =>
    some ({ u with released := u.released ++ [entry] }.move index read (.done nread))
  | .done _ => none
  | .lost => none

inductive Action
  | receive (payload : List UInt8)
  /-- `semaphore_up` -/
  | up
  | call (count : Nat)
  | advance (index : Nat)
  deriving DecidableEq, Repr

def step (u : Uart) : Action → Option Uart
  | .receive payload => if u.listed then none else some (u.rxData payload)
  | .up => if u.listed then some { u with listed := false, permits := u.permits + 1 } else none
  | .call count => some { u with reads := u.reads ++ [⟨count, .down⟩] }
  | .advance index => (u.reads[index]?).bind (u.advance index)

/-- A read has an entry that it has not taken off the fifo. -/
def Place.holding : Place → Bool
  | .measure _ | .copy _ _ | .advance _ _ | .test _ _ | .unlink _ _ => true
  | _ => false

/-- A read has had a permit and has not taken an entry off the fifo. -/
def Place.claiming : Place → Bool
  | .fetch => true
  | place => place.holding

/-- A read takes the first entry when no other read has one, and asks for at least what is left of it. -/
def Orderly (u : Uart) : Action → Prop
  | .advance index =>
    match u.reads[index]? with
    | some ⟨_, .fetch⟩ => ∀ read ∈ u.reads, read.place.holding = false
    | some ⟨count, .measure entry⟩ => reqSize (u.payload entry) - u.offset entry ≤ count
    | _ => True
  | _ => True

instance (u : Uart) (action : Action) : Decidable (Orderly u action) :=
  match action with
  | .advance index =>
    show Decidable (match u.reads[index]? with
      | some ⟨_, .fetch⟩ => ∀ read ∈ u.reads, read.place.holding = false
      | some ⟨count, .measure entry⟩ => reqSize (u.payload entry) - u.offset entry ≤ count
      | _ => True) from
    match u.reads[index]? with
    | some ⟨_, .fetch⟩ => inferInstanceAs (Decidable (∀ read ∈ u.reads, read.place.holding = false))
    | some ⟨count, .measure entry⟩ =>
      inferInstanceAs (Decidable (reqSize (u.payload entry) - u.offset entry ≤ count))
    | some ⟨_, .down⟩ | some ⟨_, .copy _ _⟩ | some ⟨_, .advance _ _⟩ | some ⟨_, .test _ _⟩
    | some ⟨_, .unlink _ _⟩ | some ⟨_, .release _ _⟩ | some ⟨_, .done _⟩ | some ⟨_, .lost⟩ | none =>
      inferInstanceAs (Decidable True)
  | .receive _ | .up | .call _ => inferInstanceAs (Decidable True)

/-- What the reads have returned and released, and when one of them is blocked. A byte is received when its request's
handler has raised the semaphore. -/
structure Delivers (u : Uart) : Prop where
  /-- The reads have copied the data of the first requests. -/
  inOrder : u.bytes <+: u.requests.flatMap reqData
  /-- A request is released at most once, and after its last byte was copied. -/
  once : ∀ entry, u.released.count entry ≤ 1
  after : ∀ entry ∈ u.released, entry < u.requests.length ∧ (u.requests.take (entry + 1)).flatMap reqData <+: u.bytes
  /-- When no read is past its semaphore, a request is released, or on the fifo with all its bytes to come. -/
  releases : (∀ read ∈ u.reads, read.place = .down ∨ ∃ nread, read.place = .done nread) →
    ∀ entry < u.requests.length, entry ∈ u.released ∨
      (entry ∈ u.fifo ∧ u.bytes <+: (u.requests.take entry).flatMap reqData)
  /-- A read is blocked only if what was received is returned, but for one request for each read that has a permit. -/
  blocked : u.permits = 0 → u.listed = false →
    (u.requests.take (u.requests.length - u.reads.countP fun read => read.place.claiming)).flatMap reqData <+: u.bytes
  /-- No read takes an entry from an empty fifo. -/
  found : ∀ read ∈ u.reads, read.place ≠ .lost

end Phabos.ApUart
