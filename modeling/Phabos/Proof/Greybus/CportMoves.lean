import Mathlib.Tactic.Cases
import Phabos.Construction.Greybus.Cport

namespace Phabos.Greybus
open Library Function Option

section Clock
variable (machine : Machine)

theorem watchdogTicks_timeout : watchdogTicks machine TIMEOUT_IN_MS = HZ machine := by
  cases machine <;> rfl

theorem HZ_pos : 0 < HZ machine := by
  cases machine <;> decide

theorem gbOperationHasTimedout_iff (s : GbCport) (op : OpId) :
    gbOperationHasTimedout machine s op = true ↔ s.time op + HZ machine < s.now := by
  have positive := HZ_pos machine
  have sent := Nat.div_add_mod (s.time op) (HZ machine)
  have current := Nat.div_add_mod s.now (HZ machine)
  have sentMod := Nat.mod_lt (s.time op) positive
  have currentMod := Nat.mod_lt s.now positive
  simp only [gbOperationHasTimedout, clockMonotonicGettime, TIMEOUT_IN_MS, ONE_SEC_IN_MSEC,
    Nat.reduceDiv, Nat.reduceMod, Nat.zero_mul, Nat.add_zero]
  generalize s.time op / HZ machine = sentSec at *
  generalize s.now / HZ machine = currentSec at *
  rcases Nat.lt_trichotomy currentSec (sentSec + 1) with early | same | late
  · have before : HZ machine * currentSec ≤ HZ machine * sentSec := Nat.mul_le_mul_left _ (by omega)
    rw [if_neg (by omega), if_pos early]
    simp only [Bool.false_eq_true, false_iff]
    omega
  · rw [same, if_neg (by omega), if_neg (by omega), decide_eq_true_iff]
    rw [same, Nat.mul_add, Nat.mul_one] at current
    omega
  · have after : HZ machine * (sentSec + 2) ≤ HZ machine * currentSec :=
      Nat.mul_le_mul_left _ (by omega)
    rw [Nat.mul_add] at after
    rw [if_pos late]
    simp only [true_iff]
    omega

end Clock

section Moves
variable (machine : Machine) (s : GbCport)

/-- The steps of the worker that only move its cursors. -/
inductive Walks : Worker → Worker → Prop
  | sweepFirst : Walks .sweepFirst (.sweepNext s.txFifo.head?)
  | sweepNext (iter : Option OpId) :
      Walks (.sweepNext iter) (.sweepTest iter (Cursor.next s.txFifo iter))
  | sweepEnd (niter : Option OpId) : Walks (.sweepTest none niter) .sweepUpdate
  | sweepExpired (op : OpId) (niter : Option OpId) (expired : s.time op + HZ machine < s.now) :
      Walks (.sweepTest (some op) niter) (.sweepUnlink op niter)
  | sweepKept (op : OpId) (niter : Option OpId) (kept : s.now ≤ s.time op + HZ machine) :
      Walks (.sweepTest (some op) niter) (.sweepNext niter)
  | matchFirst (operation : OpId) :
      Walks (.matchFirst operation) (.matchNext operation s.txFifo.head?)
  | matchNext (operation : OpId) (iter : Option OpId) :
      Walks (.matchNext operation iter) (.matchTest operation iter (Cursor.next s.txFifo iter))
  | matchEnd (operation : OpId) (niter : Option OpId) :
      Walks (.matchTest operation none niter) (.destroy operation)
  | matchSkipped (operation op : OpId) (niter : Option OpId) (differs : s.id operation ≠ s.id op) :
      Walks (.matchTest operation (some op) niter) (.matchNext operation niter)
  | matchFound (operation op : OpId) (niter : Option OpId) (same : s.id operation = s.id op) :
      Walks (.matchTest operation (some op) niter) (.matchUnlink operation op)

/-- The due time of the watchdog after an update over some pending operations. -/
def GbCport.updated (pending : List OpId) : Option ℕ :=
  if pending = [] then none else some (s.now + HZ machine)

/-- The operations removed so far, once another one is unlinked. -/
def GbCport.removing (op : OpId) (removal : Removal) : OpId → Option Removal :=
  if op ∈ s.txFifo then update s.removed op (some removal) else s.removed

/-- The callbacks run so far, once another one runs. -/
def GbCport.calling (op : OpId) : OpId → ℕ :=
  if s.hasCallback op then update s.callbacks op (s.callbacks op + 1) else s.callbacks

/-- Whether the watchdog fires at some time. -/
def GbCport.fires (now : ℕ) : Prop := ∃ expiry, s.timeoutWd = some expiry ∧ expiry ≤ now

instance (now : ℕ) : Decidable (s.fires now) :=
  decidable_of_iff (s.timeoutWd.any (· ≤ now) = true) (by
    unfold GbCport.fires
    cases s.timeoutWd <;> simp)

/-- Everything that one step can do, each kind of step with its guard and the fields it writes. -/
inductive Moves : Action → GbCport → Prop
  | create (op : OpId) (absent : s.phase op = .absent) :
      Moves (.create op) { s with
        phase := update s.phase op .created
        id := update s.id op 0
        held := update s.held op true
        refs := s.refs.create op }
  | sendUnanswered (op : OpId) (created : s.phase op = .created) (held : s.held op = true) :
      Moves (.sendUnanswered op) { s with
        phase := update s.phase op .unanswered
        id := update s.id op 0 }
  | drawZero (op : OpId) (created : s.phase op = .created) (held : s.held op = true)
      (zero : (s.requestId + 1).setWidth 16 = 0) :
      Moves (.draw op) { s with
        requestId := s.requestId + 1
        draws := s.draws + 1
        drawnAt := update s.drawnAt op (s.draws + 1)
        id := update s.id op 0
        phase := update s.phase op .redraw }
  | draw (op : OpId) (drawing : (s.phase op = .created ∧ s.held op = true ∧
        (s.requestId + 1).setWidth 16 ≠ 0) ∨ s.phase op = .redraw) :
      Moves (.draw op) { s with
        requestId := s.requestId + 1
        draws := s.draws + 1
        drawnAt := update s.drawnAt op (s.draws + 1)
        id := update s.id op ((s.requestId + 1).setWidth 16)
        phase := update s.phase op .drawn }
  | otherDraw : Moves .otherDraw { s with requestId := s.requestId + 1, draws := s.draws + 1 }
  | stamp (op : OpId) (hasCallback : Bool) (drawn : s.phase op = .drawn) :
      Moves (.stamp op hasCallback) { s with
        phase := update s.phase op .stamped
        time := update s.time op s.now
        hasCallback := update s.hasCallback op hasCallback
        refs := gbOperationRef s.refs op }
  | enqueue (op : OpId) (stamped : s.phase op = .stamped) :
      Moves (.enqueue op) { s with
        phase := update s.phase op .sending
        txFifo := s.txFifo ++ [op]
        queuedAt := update s.queuedAt op s.now
        timeoutWd := some (s.timeoutWd.getD (s.now + HZ machine)) }
  | transport (op : OpId) (sent : Bool) (sending : s.phase op = .sending) :
      Moves (.transport op sent) { s with
        phase := update s.phase op (if sent then .returned else .failed) }
  | cleanup (op : OpId) (failed : s.phase op = .failed) :
      Moves (.cleanup op) { s with
        phase := update s.phase op .returned
        txFifo := s.txFifo.erase op
        removed := s.removing op .failedSend
        timeoutWd := s.updated machine (s.txFifo.erase op)
        updatedAt := s.now
        refs := gbOperationUnref unrefDepth s.refs op }
  | destroy (op : OpId) (may : s.mayDestroy op = true) :
      Moves (.destroy op) { s with
        held := update s.held op false
        refs := gbOperationUnref unrefDepth s.refs op }
  | receive (op : OpId) (isResponse : Bool) (id : BitVec 16) (absent : s.phase op = .absent) :
      Moves (.receive op isResponse id) { s with
        phase := update s.phase op .received
        id := update s.id op id
        rxFifo := s.rxFifo ++ [.message op isResponse]
        refs := s.refs.create op }
  | tick (ticks : ℕ) (quiet : ¬s.fires (s.now + ticks)) :
      Moves (.tick ticks) { s with now := s.now + ticks }
  | fire (ticks : ℕ) (fires : s.fires (s.now + ticks)) :
      Moves (.tick ticks) { s with
        now := s.now + ticks
        timeoutWd := none
        rxFifo := if .timedout ∈ s.rxFifo then s.rxFifo else s.rxFifo ++ [.timedout] }
  | popTimedout (rest : List RxItem) (idle : s.worker = .idle) (first : s.rxFifo = .timedout :: rest) :
      Moves .work { s with rxFifo := rest, worker := .sweepFirst }
  | popMessage (operation : OpId) (isResponse : Bool) (rest : List RxItem) (idle : s.worker = .idle)
      (first : s.rxFifo = .message operation isResponse :: rest) :
      Moves .work { s with
        rxFifo := rest
        worker := if isResponse then .matchFirst operation else .destroy operation }
  | walk (worker : Worker) (walks : Walks machine s s.worker worker) :
      Moves .work { s with worker := worker }
  | sweepUnlink (op : OpId) (niter : Option OpId) (at_ : s.worker = .sweepUnlink op niter) :
      Moves .work { s with
        txFifo := s.txFifo.erase op
        removed := s.removing op .sweep
        worker := .sweepCallback op niter }
  | sweepCallback (op : OpId) (niter : Option OpId) (at_ : s.worker = .sweepCallback op niter) :
      Moves .work { s with callbacks := s.calling op, worker := .sweepUnref op niter }
  | sweepUnref (op : OpId) (niter : Option OpId) (at_ : s.worker = .sweepUnref op niter) :
      Moves .work { s with
        refs := gbOperationUnref unrefDepth s.refs op
        worker := .sweepNext niter }
  | sweepUpdate (at_ : s.worker = .sweepUpdate) :
      Moves .work { s with
        timeoutWd := s.updated machine s.txFifo
        updatedAt := s.now
        worker := .idle }
  | matchUnlink (operation op : OpId) (at_ : s.worker = .matchUnlink operation op) :
      Moves .work { s with
        txFifo := s.txFifo.erase op
        removed := s.removing op (.response operation)
        timeoutWd := s.updated machine (s.txFifo.erase op)
        updatedAt := s.now
        worker := .matchAttach operation op }
  | matchAttach (operation op : OpId) (at_ : s.worker = .matchAttach operation op) :
      Moves .work { s with
        refs := (gbOperationRef s.refs operation).attach op operation
        worker := .matchCallback operation op }
  | matchCallback (operation op : OpId) (at_ : s.worker = .matchCallback operation op) :
      Moves .work { s with callbacks := s.calling op, worker := .matchUnref operation op }
  | matchUnref (operation op : OpId) (at_ : s.worker = .matchUnref operation op) :
      Moves .work { s with
        refs := gbOperationUnref unrefDepth s.refs op
        worker := .destroy operation }
  | finish (operation : OpId) (at_ : s.worker = .destroy operation) :
      Moves .work { s with
        refs := gbOperationUnref unrefDepth s.refs operation
        worker := .idle }

end Moves

section Normal
variable {machine : Machine} {s : GbCport}

theorem gbWatchdogUpdate_eq : gbWatchdogUpdate machine s =
    { s with timeoutWd := s.updated machine s.txFifo, updatedAt := s.now } := by
  unfold gbWatchdogUpdate GbCport.updated watchdogStartMsec
  rw [watchdogTicks_timeout]
  by_cases empty : s.txFifo = []
  · simp [empty]
  · simp [empty]

theorem callback_eq (op : OpId) : s.callback op = { s with callbacks := s.calling op } := by
  unfold GbCport.callback GbCport.calling
  split <;> rfl

theorem watchdogCheckExpired_eq : watchdogCheckExpired s =
    if s.fires s.now then { s with
      timeoutWd := none
      rxFifo := if .timedout ∈ s.rxFifo then s.rxFifo else s.rxFifo ++ [.timedout] } else s := by
  unfold watchdogCheckExpired
  split
  · next quiet =>
      rw [if_neg]
      rintro ⟨expiry, due, -⟩
      rw [quiet] at due
      cases due
  · next expiry due =>
      have fires : s.fires s.now ↔ expiry ≤ s.now := by
        simp [GbCport.fires, due]
      simp only [fires, gbOperationTimeout]
      split
      · split <;> rfl
      · rfl

/-- Each step of the worker is one of its moves. -/
theorem gbPendingMessageWorker_moves {t : GbCport}
    (worked : gbPendingMessageWorker machine s = some t) : Moves machine s .work t := by
  unfold gbPendingMessageWorker at worked
  cases pc : s.worker with
  | idle =>
    rw [pc] at worked
    cases queue : s.rxFifo with
    | nil => simp [queue] at worked
    | cons item rest =>
      rw [queue] at worked
      cases item with
      | timedout =>
        obtain rfl := some.inj worked
        exact .popTimedout rest pc queue
      | message operation isResponse =>
        cases isResponse with
        | true =>
          obtain rfl := some.inj worked
          exact .popMessage operation true rest pc queue
        | false =>
          obtain rfl := some.inj worked
          exact .popMessage operation false rest pc queue
  | sweepFirst =>
    rw [pc] at worked
    obtain rfl := some.inj worked
    exact .walk _ (pc ▸ .sweepFirst)
  | sweepNext iter =>
    rw [pc] at worked
    obtain rfl := some.inj worked
    exact .walk _ (pc ▸ .sweepNext iter)
  | sweepTest iter niter =>
    rw [pc] at worked
    cases iter with
    | none =>
      obtain rfl := some.inj worked
      exact .walk _ (pc ▸ .sweepEnd niter)
    | some op =>
      have timedout := gbOperationHasTimedout_iff machine s op
      simp only at worked
      split at worked
      · obtain rfl := some.inj worked
        exact .walk _ (pc ▸ .sweepExpired op niter (by grind))
      · obtain rfl := some.inj worked
        exact .walk _ (pc ▸ .sweepKept op niter (by grind))
  | sweepUnlink op niter =>
    rw [pc] at worked
    obtain rfl := some.inj worked
    exact .sweepUnlink op niter pc
  | sweepCallback op niter =>
    rw [pc] at worked
    obtain rfl := some.inj worked
    rw [callback_eq]
    exact .sweepCallback op niter pc
  | sweepUnref op niter =>
    rw [pc] at worked
    obtain rfl := some.inj worked
    exact .sweepUnref op niter pc
  | sweepUpdate =>
    rw [pc] at worked
    obtain rfl := some.inj worked
    rw [gbWatchdogUpdate_eq]
    exact .sweepUpdate pc
  | matchFirst operation =>
    rw [pc] at worked
    obtain rfl := some.inj worked
    exact .walk _ (pc ▸ .matchFirst operation)
  | matchNext operation iter =>
    rw [pc] at worked
    obtain rfl := some.inj worked
    exact .walk _ (pc ▸ .matchNext operation iter)
  | matchTest operation iter niter =>
    rw [pc] at worked
    cases iter with
    | none =>
      obtain rfl := some.inj worked
      exact .walk _ (pc ▸ .matchEnd operation niter)
    | some op =>
      simp only at worked
      split at worked
      · obtain rfl := some.inj worked
        exact .walk _ (pc ▸ .matchSkipped operation op niter ‹_›)
      · obtain rfl := some.inj worked
        exact .walk _ (pc ▸ .matchFound operation op niter (by grind))
  | matchUnlink operation op =>
    rw [pc] at worked
    obtain rfl := some.inj worked
    rw [gbWatchdogUpdate_eq]
    exact .matchUnlink operation op pc
  | matchAttach operation op =>
    rw [pc] at worked
    obtain rfl := some.inj worked
    exact .matchAttach operation op pc
  | matchCallback operation op =>
    rw [pc] at worked
    obtain rfl := some.inj worked
    rw [callback_eq]
    exact .matchCallback operation op pc
  | matchUnref operation op =>
    rw [pc] at worked
    obtain rfl := some.inj worked
    exact .matchUnref operation op pc
  | destroy operation =>
    rw [pc] at worked
    obtain rfl := some.inj worked
    exact .finish operation pc

/-- Each step of the cport is one of its moves. -/
theorem step_moves {action : Action} {t : GbCport} (stepped : step machine s action = some t) :
    Moves machine s action t := by
  cases action with
  | create op =>
    simp only [step, ite_none_right_eq_some, some.injEq] at stepped
    obtain ⟨absent, rfl⟩ := stepped
    exact .create op absent
  | sendUnanswered op =>
    simp only [step, ite_none_right_eq_some, some.injEq] at stepped
    obtain ⟨⟨created, held⟩, rfl⟩ := stepped
    exact .sendUnanswered op created held
  | draw op =>
    simp only [step, ite_none_right_eq_some, some.injEq] at stepped
    obtain ⟨drawing, rfl⟩ := stepped
    by_cases first : s.phase op = .created ∧ (s.requestId + 1).setWidth 16 = 0
    · have held : s.held op = true := by grind
      rw [if_pos first, first.2]
      exact .drawZero op first.1 held first.2
    · rw [if_neg first]
      exact .draw op (by grind)
  | otherDraw =>
    obtain rfl := some.inj stepped
    exact .otherDraw
  | stamp op hasCallback =>
    simp only [step, ite_none_right_eq_some, some.injEq] at stepped
    obtain ⟨drawn, rfl⟩ := stepped
    exact .stamp op hasCallback drawn
  | enqueue op =>
    simp only [step, ite_none_right_eq_some, some.injEq] at stepped
    obtain ⟨stamped, rfl⟩ := stepped
    have armed : Moves machine s (.enqueue op) _ := .enqueue op stamped
    cases due : s.timeoutWd with
    | none =>
      simp only [due, getD_none] at armed
      simp only [if_true, watchdogStartMsec, watchdogTicks_timeout]
      exact armed
    | some expiry =>
      simp only [due, getD_some] at armed
      simp only [reduceCtorEq, if_false]
      exact armed
  | transport op sent =>
    simp only [step, ite_none_right_eq_some, some.injEq] at stepped
    obtain ⟨sending, rfl⟩ := stepped
    exact .transport op sent sending
  | cleanup op =>
    simp only [step, ite_none_right_eq_some, some.injEq] at stepped
    obtain ⟨failed, rfl⟩ := stepped
    rw [gbWatchdogUpdate_eq]
    exact .cleanup op failed
  | destroy op =>
    simp only [step, ite_none_right_eq_some, some.injEq] at stepped
    obtain ⟨may, rfl⟩ := stepped
    exact .destroy op may
  | receive op isResponse id =>
    simp only [step, ite_none_right_eq_some, some.injEq] at stepped
    obtain ⟨absent, rfl⟩ := stepped
    exact .receive op isResponse id absent
  | tick ticks =>
    obtain rfl := some.inj stepped
    rw [watchdogCheckExpired_eq]
    split
    · next fires => exact .fire ticks fires
    · next quiet => exact .tick ticks quiet
  | work => exact gbPendingMessageWorker_moves stepped

end Normal

end Phabos.Greybus
