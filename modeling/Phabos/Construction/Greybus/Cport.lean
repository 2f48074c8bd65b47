import Phabos.Construction.Kernel.Watchdog

/-
This file embeds the pending operations of one CPort in drivers/greybus/greybus-core.c. The sending
tasks, the worker of the CPort, the transport and the clock interleave between any two steps. A section
under a spinlock or with interrupts disabled is one step.
-/

namespace Phabos.Greybus
open Library

def TIMEOUT_IN_MS : ℕ := 1000

/-- Each created operation has a name of its own. -/
abbrev OpId := ℕ

/-- This is how far the creator is with an operation, or that the operation was received. -/
inductive Phase
  | absent
  | created
  | unanswered
  | redraw
  | drawn
  | stamped
  | sending
  | failed
  | returned
  | received
  deriving DecidableEq, Repr

/-- This is what took an operation off `tx_fifo`. -/
inductive Removal
  | sweep
  | response (received : OpId)
  | failedSend
  deriving DecidableEq, Repr

/-- The entries of `rx_fifo` are the timeout pseudo-operation and received messages. -/
inductive RxItem
  | timedout
  | message (received : OpId) (isResponse : Bool)
  deriving DecidableEq, Repr

/-- The local variables of the worker are its cursors, where `none` is the list head. -/
inductive Worker
  | idle
  | sweepFirst
  | sweepNext (iter : Option OpId)
  | sweepTest (iter niter : Option OpId)
  | sweepUnlink (op : OpId) (niter : Option OpId)
  | sweepCallback (op : OpId) (niter : Option OpId)
  | sweepUnref (op : OpId) (niter : Option OpId)
  | sweepUpdate
  | matchFirst (operation : OpId)
  | matchNext (operation : OpId) (iter : Option OpId)
  | matchTest (operation : OpId) (iter niter : Option OpId)
  | matchUnlink (operation op : OpId)
  | matchAttach (operation op : OpId)
  | matchCallback (operation op : OpId)
  | matchUnref (operation op : OpId)
  | destroy (operation : OpId)
  deriving DecidableEq, Repr

/-- The reference counts and response links of all operations. It also records how often each operation
was returned to `op_slab` and how often an unreferenced operation was released. -/
structure Refs where
  refCount : OpId → ℕ
  response : OpId → Option OpId
  freed : OpId → ℕ
  badUnrefs : ℕ

/-- The state of one CPort and of its operations. The last fields only record the history: how many ids
were drawn in all and up to that of an operation, which creators hold their operation, how often a
callback ran, why an operation left `tx_fifo` and when it was put there, and when the watchdog was last
updated. -/
structure GbCport where
  phase : OpId → Phase
  id : OpId → BitVec 16
  time : OpId → ℕ
  hasCallback : OpId → Bool
  refs : Refs
  requestId : BitVec 32
  txFifo : List OpId
  rxFifo : List RxItem
  timeoutWd : Option ℕ
  worker : Worker
  now : ℕ
  draws : ℕ
  drawnAt : OpId → ℕ
  held : OpId → Bool
  callbacks : OpId → ℕ
  removed : OpId → Option Removal
  queuedAt : OpId → ℕ
  updatedAt : ℕ

/-- No operation exists, and the worker waits. -/
def gbInitCport : GbCport where
  phase := fun _ => .absent
  id := fun _ => 0
  time := fun _ => 0
  hasCallback := fun _ => false
  refs := ⟨fun _ => 0, fun _ => none, fun _ => 0, 0⟩
  requestId := 0
  txFifo := []
  rxFifo := []
  timeoutWd := none
  worker := .idle
  now := 0
  draws := 0
  drawnAt := fun _ => 0
  held := fun _ => false
  callbacks := fun _ => 0
  removed := fun _ => none
  queuedAt := fun _ => 0
  updatedAt := 0

section References
open Function

/-- `mcache_alloc` and `atomic_init` give a new operation its first reference. -/
def Refs.create (refs : Refs) (op : OpId) : Refs :=
  { refs with refCount := update refs.refCount op 1 }

def gbOperationRef (refs : Refs) (op : OpId) : Refs :=
  if refs.refCount op = 0 then refs
  else { refs with refCount := update refs.refCount op (refs.refCount op + 1) }

/-- `gb_operation_unref` releases the response together with the last reference. A response has no
response of its own, so that the depth of the recursion is two. -/
def gbOperationUnref : ℕ → Refs → OpId → Refs
  | 0, refs, _ => refs
  | depth + 1, refs, op =>
    if refs.refCount op = 0 then { refs with badUnrefs := refs.badUnrefs + 1 }
    else
      let refs := { refs with refCount := update refs.refCount op (refs.refCount op - 1) }
      if refs.refCount op ≠ 0 then refs
      else
        let refs := match refs.response op with
          | some response => gbOperationUnref depth refs response
          | none => refs
        { refs with
          response := update refs.response op none
          freed := update refs.freed op (refs.freed op + 1) }

/-- The recursion releases an operation and its response. -/
def unrefDepth : ℕ := 2

def Refs.attach (refs : Refs) (op operation : OpId) : Refs :=
  { refs with response := update refs.response op (some operation) }

end References

section Tasks
open Function
variable (machine : Machine)

def watchdogStartMsec (s : GbCport) (msec : ℕ) : GbCport :=
  { s with timeoutWd := some (s.now + watchdogTicks machine msec) }

def gbWatchdogUpdate (s : GbCport) : GbCport :=
  let s := { s with updatedAt := s.now }
  if s.txFifo = [] then { s with timeoutWd := none } else watchdogStartMsec machine s TIMEOUT_IN_MS

/-- `list_del` has no effect on a node that is already unlinked. -/
def GbCport.listDel (s : GbCport) (op : OpId) (removal : Removal) : GbCport :=
  { s with
    txFifo := s.txFifo.erase op
    removed := if op ∈ s.txFifo then update s.removed op (some removal) else s.removed }

def GbCport.callback (s : GbCport) (op : OpId) : GbCport :=
  if s.hasCallback op then { s with callbacks := update s.callbacks op (s.callbacks op + 1) } else s

def GbCport.unref (s : GbCport) (op : OpId) : GbCport :=
  { s with refs := gbOperationUnref unrefDepth s.refs op }

def gbOperationHasTimedout (s : GbCport) (op : OpId) : Bool :=
  let time := clockMonotonicGettime machine (s.time op)
  let timeoutSec := time.tvSec + TIMEOUT_IN_MS / ONE_SEC_IN_MSEC
  let timeoutNsec := time.tvNsec + TIMEOUT_IN_MS % ONE_SEC_IN_MSEC * 1000000
  let current := clockMonotonicGettime machine s.now
  if current.tvSec > timeoutSec then true
  else if current.tvSec < timeoutSec then false
  else current.tvNsec > timeoutNsec

/-- The timeout pseudo-operation is queued once. -/
def gbOperationTimeout (s : GbCport) : GbCport :=
  if .timedout ∈ s.rxFifo then s else { s with rxFifo := s.rxFifo ++ [.timedout] }

/-- The tick interrupt lets an expired watchdog fire. -/
def watchdogCheckExpired (s : GbCport) : GbCport :=
  match s.timeoutWd with
  | none => s
  | some expiry => if expiry ≤ s.now then gbOperationTimeout { s with timeoutWd := none } else s

/-- This is one step of `gb_clean_timedout_operation` or `gb_process_response` in the worker. A request
goes to its handler, and is then destroyed. -/
def gbPendingMessageWorker (s : GbCport) : Option GbCport :=
  match s.worker with
  | .idle =>
    match s.rxFifo with
    | [] => none
    | .timedout :: rest =>
      some { s with rxFifo := rest, worker := .sweepFirst }
    | .message operation true :: rest => some { s with rxFifo := rest, worker := .matchFirst operation }
    | .message operation false :: rest => some { s with rxFifo := rest, worker := .destroy operation }
  | .sweepFirst => some { s with worker := .sweepNext s.txFifo.head? }
  | .sweepNext iter => some { s with worker := .sweepTest iter (Cursor.next s.txFifo iter) }
  | .sweepTest none _ => some { s with worker := .sweepUpdate }
  | .sweepTest (some op) niter =>
    if gbOperationHasTimedout machine s op then some { s with worker := .sweepUnlink op niter }
    else some { s with worker := .sweepNext niter }
  | .sweepUnlink op niter => some { s.listDel op .sweep with worker := .sweepCallback op niter }
  | .sweepCallback op niter => some { s.callback op with worker := .sweepUnref op niter }
  | .sweepUnref op niter => some { s.unref op with worker := .sweepNext niter }
  | .sweepUpdate => some { gbWatchdogUpdate machine s with worker := .idle }
  | .matchFirst operation => some { s with worker := .matchNext operation s.txFifo.head? }
  | .matchNext operation iter =>
    some { s with worker := .matchTest operation iter (Cursor.next s.txFifo iter) }
  | .matchTest operation none _ => some { s with worker := .destroy operation }
  | .matchTest operation (some op) niter =>
    if s.id operation ≠ s.id op then some { s with worker := .matchNext operation niter }
    else some { s with worker := .matchUnlink operation op }
  | .matchUnlink operation op =>
    some { gbWatchdogUpdate machine (s.listDel op (.response operation)) with
      worker := .matchAttach operation op }
  | .matchAttach operation op =>
    some { s with
      refs := (gbOperationRef s.refs operation).attach op operation
      worker := .matchCallback operation op }
  | .matchCallback operation op => some { s.callback op with worker := .matchUnref operation op }
  | .matchUnref operation op => some { s.unref op with worker := .destroy operation }
  | .destroy operation => some { s.unref operation with worker := .idle }

/-- What can happen next: a task takes one step of creating, sending or destroying an operation, another
CPort draws an id, a message arrives, time passes or the worker takes a step. -/
inductive Action
  | create (op : OpId)
  | sendUnanswered (op : OpId)
  | draw (op : OpId)
  | otherDraw
  | stamp (op : OpId) (hasCallback : Bool)
  | enqueue (op : OpId)
  | transport (op : OpId) (sent : Bool)
  | cleanup (op : OpId)
  | destroy (op : OpId)
  | receive (op : OpId) (isResponse : Bool) (id : BitVec 16)
  | tick (ticks : ℕ)
  | work
  deriving DecidableEq, Repr

/-- A creator is outside of `gb_operation_send_request`, or its callback has run. -/
def GbCport.mayDestroy (s : GbCport) (op : OpId) : Bool :=
  s.held op && (s.phase op == .created || s.phase op == .unanswered || s.phase op == .returned ||
    0 < s.callbacks op)

def step (s : GbCport) : Action → Option GbCport
  | .create op =>
    if s.phase op = .absent then
      some { s with
        phase := update s.phase op .created
        id := update s.id op 0
        held := update s.held op true
        refs := s.refs.create op }
    else none
  | .sendUnanswered op =>
    if s.phase op = .created ∧ s.held op then
      some { s with phase := update s.phase op .unanswered, id := update s.id op 0 }
    else none
  | .draw op =>
    -- A first id of zero is replaced once.
    if (s.phase op = .created ∧ s.held op) ∨ s.phase op = .redraw then
      let requestId := s.requestId + 1
      let id := requestId.setWidth 16
      some { s with
        requestId := requestId
        draws := s.draws + 1
        drawnAt := update s.drawnAt op (s.draws + 1)
        id := update s.id op id
        phase := update s.phase op
          (if s.phase op = .created ∧ id = 0 then .redraw else .drawn) }
    else none
  | .otherDraw => some { s with requestId := s.requestId + 1, draws := s.draws + 1 }
  | .stamp op hasCallback =>
    if s.phase op = .drawn then
      some { s with
        phase := update s.phase op .stamped
        time := update s.time op s.now
        hasCallback := update s.hasCallback op hasCallback
        refs := gbOperationRef s.refs op }
    else none
  | .enqueue op =>
    if s.phase op = .stamped then
      let s := { s with
        phase := update s.phase op .sending
        txFifo := s.txFifo ++ [op]
        queuedAt := update s.queuedAt op s.now }
      some (if s.timeoutWd = none then watchdogStartMsec machine s TIMEOUT_IN_MS else s)
    else none
  | .transport op sent =>
    if s.phase op = .sending then
      some { s with phase := update s.phase op (if sent then .returned else .failed) }
    else none
  | .cleanup op =>
    if s.phase op = .failed then
      let s := gbWatchdogUpdate machine (s.listDel op .failedSend)
      some { s.unref op with phase := update s.phase op .returned }
    else none
  | .destroy op =>
    if s.mayDestroy op then some { s.unref op with held := update s.held op false } else none
  | .receive op isResponse id =>
    if s.phase op = .absent then
      some { s with
        phase := update s.phase op .received
        id := update s.id op id
        rxFifo := s.rxFifo ++ [.message op isResponse]
        refs := s.refs.create op }
    else none
  | .tick ticks => some (watchdogCheckExpired { s with now := s.now + ticks })
  | .work => gbPendingMessageWorker machine s

end Tasks

end Phabos.Greybus
