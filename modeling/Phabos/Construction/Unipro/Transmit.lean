import Mathlib.Algebra.Ring.Nat
import Mathlib.Logic.Function.Basic

/-
This file embeds the two transmit paths of drivers/unipro/unipro-tsb-es2.c.
-/

namespace Phabos.Unipro

def EPIPE : Int := 32

def EBUSY : Int := 16

/-- A write to the transmit buffer of a CPort. `som` selects the address that starts a message. -/
inductive TxEvent
  | data (som : Bool) (bytes : List (BitVec 8))
  | eom
  deriving DecidableEq, Repr

/-- `_tsb_unipro_send`, with the bytes from `buf` on and the reading of `unipro_get_tx_free_buffer_space` -/
def tsbUniproSendChunk (isConnected : Bool) (buf : List (BitVec 8)) (len : BitVec 32) (som : Bool)
    (reading : BitVec 16) : Int × List TxEvent :=
  if !isConnected then (- EPIPE, [])
  else
    let count := reading.setWidth 32
    if count = 0 then (0, [])
    else
      let count := if count > len then len else count
      (count.toNat, [.data som (buf.take count.toNat)])

/-- The loop of `tsb_unipro_send`. The fuel bounds its turns, and turn `n` takes reading `n`. -/
def tsbUniproSendLoop (isConnected : Bool) (buf : List (BitVec 8)) (len : BitVec 32) (readings : ℕ → BitVec 16) :
    ℕ → ℕ → BitVec 32 → Bool → Option (Int × List TxEvent)
  | 0, _, _, _ => none
  | fuel + 1, n, sent, som =>
    if sent < len then
      let chunk := tsbUniproSendChunk isConnected (buf.drop sent.toNat) (len - sent) som (readings n)
      if chunk.1 < 0 then some chunk
      else
        (tsbUniproSendLoop isConnected buf len readings fuel (n + 1) (sent + BitVec.ofInt 32 chunk.1)
          (if chunk.1 ≠ 0 then false else som)).map fun later => (later.1, chunk.2 ++ later.2)
    else some (sent.toInt, [.eom])

def tsbUniproSend (isConnected : Bool) (buf : List (BitVec 8)) (readings : ℕ → BitVec 16) (fuel : ℕ) :
    Option (Int × List TxEvent) :=
  tsbUniproSendLoop isConnected buf (BitVec.ofNat 32 buf.length) readings fuel 0 0 true

/-- A buffer is known by the number of its submission. `byteSent` and `len` are of type `int`. -/
structure TsbUniproBuffer where
  id : ℕ
  data : List (BitVec 8)
  som : Bool
  byteSent : BitVec 32
  len : BitVec 32
  deriving DecidableEq, Repr

def TsbUniproBuffer.create (id : ℕ) (data : List (BitVec 8)) : TsbUniproBuffer :=
  ⟨id, data, true, 0, BitVec.ofNat 32 data.length⟩

/-- The part of `tsb_unipro_send_tx_buffer` that sends. It gives the status for `unipro_dequeue_tx_buffer`, or nothing
when the buffer has to be tried again. -/
def TsbUniproBuffer.transmit (isConnected : Bool) (reading : BitVec 16) (buffer : TsbUniproBuffer) :
    Option Int × TsbUniproBuffer × List TxEvent :=
  let chunk := tsbUniproSendChunk isConnected (buffer.data.drop buffer.byteSent.toNat)
    (buffer.len - buffer.byteSent) buffer.som reading
  if chunk.1 < 0 then (some chunk.1, buffer, chunk.2)
  else
    let buffer := { buffer with som := false, byteSent := buffer.byteSent + BitVec.ofInt 32 chunk.1 }
    if buffer.len.sle buffer.byteSent then (some 0, buffer, chunk.2 ++ [.eom])
    else (none, buffer, chunk.2)

structure UniproCport where
  isConnected : Bool
  txFifo : List TsbUniproBuffer

/-- `tsb_unipro_send_async` up to `semaphore_up` -/
def UniproCport.submit (cport : UniproCport) (id : ℕ) (data : List (BitVec 8)) : Int × UniproCport :=
  if !cport.isConnected then (- EPIPE, cport)
  else (0, { cport with txFifo := cport.txFifo ++ [.create id data] })

def tsbUniproSendTxBuffer (cport : UniproCport) (reading : BitVec 16) : Int × UniproCport × List TxEvent :=
  match cport.txFifo with
  | [] => (0, cport, [])
  | buffer :: rest =>
    let sent := buffer.transmit cport.isConnected reading
    match sent.1 with
    | some status => (status, { cport with txFifo := rest }, sent.2.2)
    | none => (- EBUSY, { cport with txFifo := sent.2.1 :: rest }, sent.2.2)

/-- What a number of passes of the worker writes for a CPort. Pass `n` takes reading `n`. -/
def txPasses (readings : ℕ → BitVec 16) : ℕ → ℕ → UniproCport → List TxEvent
  | 0, _, _ => []
  | passes + 1, n, cport =>
    let sent := tsbUniproSendTxBuffer cport (readings n)
    sent.2.2 ++ txPasses readings passes (n + 1) sent.2.1

/-- The places of `tsb_unipro_tx_worker`: before `semaphore_down`, before the visit of a CPort (or at the end of a
pass), and in `unipro_dequeue_tx_buffer` before and after `list_del` -/
inductive TxWorker
  | down
  | visit (cport : ℕ) (isBusy : Bool)
  | dequeue (cport : ℕ) (isBusy : Bool) (status : Int)
  | callback (cport : ℕ) (isBusy : Bool) (id : ℕ) (status : Int)
  deriving DecidableEq, Repr

/-- `permits` is the count of `tx_fifo_lock`, and `halfDone` counts the calls of `tsb_unipro_send_async` before their
`semaphore_up`. `submitted` keeps the CPort and the bytes of each buffer, `wire` what has been written for which
buffer, and `completed` the callbacks that have run with their CPort, buffer and status. -/
structure Machine where
  cportCount : ℕ
  cports : ℕ → UniproCport
  permits : BitVec 32
  halfDone : ℕ
  worker : TxWorker
  submitted : List (ℕ × List (BitVec 8))
  wire : List (ℕ × TxEvent)
  completed : List (ℕ × ℕ × Int)

def Machine.boot (cportCount : ℕ) : Machine := ⟨cportCount, fun _ => ⟨false, []⟩, 0, 0, .down, [], [], []⟩

inductive Action
  | connect (cport : ℕ) (isConnected : Bool)
  | sendAsync (cport : ℕ) (data : List (BitVec 8))
  | semaphoreUp
  | semaphoreDown
  | sendTxBuffer (reading : BitVec 16)
  | nextPass
  | listDel
  | runCallback
  deriving DecidableEq, Repr

def Machine.setFifo (s : Machine) (i : ℕ) (txFifo : List TsbUniproBuffer) : Machine :=
  { s with cports := Function.update s.cports i { s.cports i with txFifo } }

/-- `tsb_unipro_send_async` up to `semaphore_up`. A call for a CPort that is not connected changes nothing. -/
def Machine.sendAsync (s : Machine) (i : ℕ) (data : List (BitVec 8)) : Machine :=
  let sent := (s.cports i).submit s.submitted.length data
  if sent.1 = 0 then
    { s.setFifo i sent.2.txFifo with halfDone := s.halfDone + 1, submitted := s.submitted ++ [(i, data)] }
  else s

/-- A visit of a CPort, up to `unipro_dequeue_tx_buffer` if it comes to that -/
def Machine.sendTxBuffer (s : Machine) (i : ℕ) (isBusy : Bool) (reading : BitVec 16) : Machine :=
  match (s.cports i).txFifo with
  | [] => { s with worker := .visit (i + 1) isBusy }
  | buffer :: rest =>
    let sent := buffer.transmit (s.cports i).isConnected reading
    { s.setFifo i (sent.2.1 :: rest) with
      wire := s.wire ++ sent.2.2.map fun event => (buffer.id, event)
      worker := match sent.1 with
        | some status => .dequeue i isBusy status
        | none => .visit (i + 1) true }

def step (s : Machine) : Action → Option Machine
  | .connect i isConnected => some { s with cports := Function.update s.cports i { s.cports i with isConnected } }
  | .sendAsync i data =>
    -- A length is a `size_t`.
    if i < s.cportCount ∧ data.length < 2 ^ 32 then some (s.sendAsync i data) else none
  | .semaphoreUp => if 0 < s.halfDone then some { s with permits := s.permits + 1, halfDone := s.halfDone - 1 } else none
  | .semaphoreDown =>
    if s.worker = .down ∧ s.permits ≠ 0 then some { s with permits := s.permits - 1, worker := .visit 0 false }
    else none
  | .sendTxBuffer reading =>
    match s.worker with
    | .visit i isBusy => if i < s.cportCount then some (s.sendTxBuffer i isBusy reading) else none
    | _ => none
  | .nextPass =>
    match s.worker with
    | .visit i isBusy =>
      if i < s.cportCount then none
      else some { s with worker := if isBusy then .visit 0 false else .down }
    | _ => none
  | .listDel =>
    match s.worker with
    | .dequeue i isBusy status =>
      (s.cports i).txFifo.head?.map fun buffer =>
        { s.setFifo i (s.cports i).txFifo.tail with worker := .callback i isBusy buffer.id status }
    | _ => none
  | .runCallback =>
    match s.worker with
    | .callback i isBusy id status =>
      some { s with completed := s.completed ++ [(i, id, status)], worker := .visit (i + 1) isBusy }
    | _ => none

end Phabos.Unipro
