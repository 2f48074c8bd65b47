import Phabos.Construction.I2c.Dw
import Phabos.Library.Run

namespace Phabos.DwI2c
open Library I2c Option

namespace Driver

/-- A call that waits has a watchdog that runs or a permit. A permit is there only during the call that it was produced
for, each call took as many permits as were produced during it, and a call that returned 0 saw a stop and neither an
abort nor an error nor a timeout. -/
structure Ends (s : Driver) : Prop where
  released : s.call = some .wait → s.armed = true ∨ 0 < s.permits
  own : s.call = none → s.permits = 0
  once : s.call ≠ none → s.produced ≤ 1 ∧ s.permits ≤ s.produced
  returned : ∀ result ∈ s.returns, result.taken = result.produced ∧
    (result.ret = 0 → result.stopped = true ∧ result.aborted = false ∧ result.msgErr = 0 ∧ result.timedOut = false)

/-- The messages from the present one on have its address and a length. -/
def Valid (g : Globals) : Prop :=
  ∀ first ∈ g.msgs[g.txIndex]?, ∀ msg ∈ g.msgs.drop g.txIndex, msg.addr = first.addr ∧ msg.buffer.length ≠ 0

/-- When a call has been released, no interrupt has an abort or a stop, or comes after an invalid message or finds one, or
handles bytes after a timeout. The watchdog of a call that has not been released ends while a message is in progress,
and the one of a call that has been released ends when none is. -/
def InTurn (s : Driver) : Event → Prop
  | .interrupt registers =>
    s.enabled = true → registers.raw &&& ~~~ DW_I2C_INTR_ACTIVITY ≠ 0 → 0 < s.produced →
      registers.raw &&& s.intrMask &&& (DW_I2C_INTR_TX_ABRT ||| DW_I2C_INTR_STOP_DET) = 0 ∧ s.g.msgErr = 0 ∧
        (registers.raw &&& s.intrMask &&& DW_I2C_INTR_TX_EMPTY ≠ 0 → s.timedOut = false ∧ Valid s.g) ∧
        (registers.raw &&& s.intrMask &&& DW_I2C_INTR_RX_FULL ≠ 0 → s.timedOut = false)
  | .timeout => 0 < s.produced ↔ s.g.status = DW_I2C_STATUS_IDLE
  | .call _ | .transfer _ => True

section Turns
variable {g : Globals} {l : Transfer}

theorem readTurn_frame (g : Globals) (rxFifo : List UInt8) :
    (readTurn g rxFifo).2.2.1.msgs = g.msgs ∧ (readTurn g rxFifo).2.2.1.txIndex = g.txIndex ∧
      (readTurn g rxFifo).2.2.1.msgErr = g.msgErr ∧ (readTurn g rxFifo).2.2.1.cmdErr = g.cmdErr := by
  unfold readTurn
  cases g.msgs[g.rxIndex]? with
  | none => exact ⟨rfl, rfl, rfl, rfl⟩
  | some msg =>
    dsimp only
    split
    · exact ⟨rfl, rfl, rfl, rfl⟩
    · split
      · split <;> exact ⟨rfl, rfl, rfl, rfl⟩
      · split <;> exact ⟨rfl, rfl, rfl, rfl⟩

theorem readTurns_frame (rxFifo : ℕ → List UInt8) (left : ℕ) (g : Globals) :
    (readTurns rxFifo left g).msgs = g.msgs ∧ (readTurns rxFifo left g).txIndex = g.txIndex ∧
      (readTurns rxFifo left g).msgErr = g.msgErr ∧ (readTurns rxFifo left g).cmdErr = g.cmdErr := by
  induction left generalizing g with
  | zero => exact ⟨rfl, rfl, rfl, rfl⟩
  | succ left ih =>
    obtain ⟨msgs, index, msgErr, cmdErr⟩ := readTurn_frame g (rxFifo left)
    unfold readTurns
    dsimp only
    split
    · obtain ⟨msgs', index', msgErr', cmdErr'⟩ := ih (readTurn g (rxFifo left)).2.2.1
      exact ⟨msgs'.trans msgs, index'.trans index, msgErr'.trans msgErr, cmdErr'.trans cmdErr⟩
    · exact ⟨msgs, index, msgErr, cmdErr⟩

theorem transferTurn_cmdErr (g : Globals) (l : Transfer) (txflr rxflr : ℕ) :
    (transferTurn g l txflr rxflr).2.1.cmdErr = g.cmdErr := by
  unfold transferTurn
  cases g.msgs[g.txIndex]? with
  | none => rfl
  | some msg =>
    dsimp only
    split
    · rfl
    · split
      · rfl
      · split <;> rfl

theorem transferTurns_cmdErr (levels : ℕ → ℕ × ℕ) (left : ℕ) (g : Globals) (l : Transfer) :
    (transferTurns levels left g l).cmdErr = g.cmdErr := by
  induction left generalizing g l with
  | zero => rfl
  | succ left ih =>
    have turn := transferTurn_cmdErr g l (levels left).1 (levels left).2
    unfold transferTurns
    split
    · rename_i next l' same
      rw [same] at turn
      exact (ih next l').trans turn
    · rename_i next same
      rw [same] at turn
      exact turn

/-- A turn over a valid message leaves the message error alone, and the next turn is one over the next message. -/
theorem transferTurn_msgErr (valid : ∀ msg ∈ g.msgs.drop g.txIndex, msg.addr = l.addr ∧ msg.buffer.length ≠ 0)
    (txflr rxflr : ℕ) :
    (transferTurn g l txflr rxflr).2.1.msgErr = g.msgErr ∧
      ∀ next ∈ (transferTurn g l txflr rxflr).2.2, next.addr = l.addr ∧
        (transferTurn g l txflr rxflr).2.1.msgs = g.msgs ∧
          (transferTurn g l txflr rxflr).2.1.txIndex = g.txIndex + 1 := by
  unfold transferTurn
  cases here : g.msgs[g.txIndex]? with
  | none => exact ⟨rfl, nofun⟩
  | some msg =>
    obtain ⟨inside, rfl⟩ := List.getElem?_eq_some_iff.mp here
    have first : g.msgs[g.txIndex] ∈ g.msgs.drop g.txIndex := by
      rw [List.drop_eq_getElem_cons inside]
      exact List.mem_cons_self
    obtain ⟨addr, some⟩ := valid _ first
    have kept : (l.init g g.msgs[g.txIndex]).addr = l.addr := by
      unfold Transfer.init
      split <;> rfl
    simp only [addr, ne_eq, not_true_eq_false, if_false, if_neg some]
    split
    · exact ⟨rfl, nofun⟩
    · refine ⟨rfl, fun next same => ?_⟩
      obtain rfl := Option.some.inj same
      exact ⟨kept, rfl, rfl⟩

theorem transferTurns_msgErr (levels : ℕ → ℕ × ℕ) (left : ℕ)
    (valid : ∀ msg ∈ g.msgs.drop g.txIndex, msg.addr = l.addr ∧ msg.buffer.length ≠ 0) :
    (transferTurns levels left g l).msgErr = g.msgErr := by
  induction left generalizing g l with
  | zero => rfl
  | succ left ih =>
    obtain ⟨msgErr, goesOn⟩ := transferTurn_msgErr valid (levels left).1 (levels left).2
    unfold transferTurns
    split
    · rename_i next l' same
      rw [same] at msgErr goesOn
      obtain ⟨addr, msgs, index⟩ := goesOn l' rfl
      dsimp only at msgErr msgs index
      refine (ih fun msg there => ?_).trans msgErr
      rw [msgs, index] at there
      rw [addr]
      exact valid msg (List.drop_subset_drop_left g.msgs (Nat.le_succ _) there)
    · rename_i next same
      rw [same] at msgErr
      exact msgErr

theorem transferMsgs_msgErr (valid : Valid g) (levels : ℕ → ℕ × ℕ) : (g.transferMsgs levels).msgErr = g.msgErr := by
  unfold Globals.transferMsgs
  cases here : g.msgs[g.txIndex]? with
  | none =>
    rw [Nat.sub_eq_zero_of_le (List.getElem?_eq_none_iff.mp here)]
    rfl
  | some first =>
    apply transferTurns_msgErr
    unfold Globals.transferMsg
    rw [here]
    exact valid first here

end Turns

/-- What holds where the call is -/
def At (s : Driver) : Step → Prop
  | .bus => s.enabled = false ∧ s.armed = false ∧ s.permits = 0 ∧ s.produced = 0 ∧ s.g.status = DW_I2C_STATUS_IDLE
  | .start => s.enabled = false ∧ s.armed = true ∧ s.permits = 0 ∧ s.produced = 0 ∧ s.g.status = DW_I2C_STATUS_IDLE
  | .wait => s.permits = s.produced ∧ (s.produced = 0 → s.armed = true)
  | .cancel => s.permits = 0 ∧ s.produced = 1
  | .test => s.armed = false ∧ s.permits = 0 ∧ s.produced = 1
  | .disable => s.armed = false ∧ s.permits = 0 ∧ s.produced = 1 ∧ s.timedOut = false

/-- What holds of the present call -/
structure Running (s : Driver) (place : Step) : Prop where
  place : At s place
  once : s.produced ≤ 1
  cause : 0 < s.produced → s.stopped = true ∨ s.g.cmdErr ≠ 0 ∨ s.g.msgErr ≠ 0 ∨ s.timedOut = true
  late : s.timedOut = true → 0 < s.produced ∧ s.g.status = DW_I2C_STATUS_TIMEOUT
  abort : s.aborted = true → s.g.cmdErr ≠ 0

/-- What holds between the steps of a run -/
structure Sound (s : Driver) : Prop where
  idle : s.call = none → s.enabled = false ∧ s.armed = false ∧ s.permits = 0
  running : ∀ place, s.call = some place → Running s place
  returned : ∀ result ∈ s.returns, result.taken = result.produced ∧
    (result.ret = 0 → result.stopped = true ∧ result.aborted = false ∧ result.msgErr = 0 ∧ result.timedOut = false)

theorem result_zero {g : Globals} (zero : g.result = 0) : g.msgErr = 0 ∧ g.cmdErr = 0 := by
  unfold Globals.result at zero
  split at zero
  · rename_i error
    exact absurd zero error
  · rename_i noError
    refine ⟨not_ne_iff.mp noError, ?_⟩
    split at zero
    · assumption
    · split at zero
      · unfold handleTxAbort at zero
        split at zero
        · cases zero
        · split at zero
          · cases zero
          · split at zero <;> cases zero
      · cases zero

section Interrupt
variable {s : Driver}

theorem handle_frame (s : Driver) (stat : BitVec 32) (registers : Registers) :
    ∃ g mask aborted, s.handle stat registers = { s with g := g, intrMask := mask, aborted := aborted } ∧
      (stat &&& DW_I2C_INTR_TX_ABRT ≠ 0 ∧ g.cmdErr ≠ 0 ∨
        stat &&& DW_I2C_INTR_TX_ABRT = 0 ∧ g.cmdErr = s.g.cmdErr ∧ aborted = s.aborted) := by
  unfold Driver.handle
  split
  · rename_i abort
    refine ⟨_, _, _, rfl, Or.inl ⟨abort, ?_⟩⟩
    exact fun zero => absurd (BitVec.or_eq_zero_iff.mp zero).2 (by decide)
  · rename_i noAbort
    have noAbort := not_ne_iff.mp noAbort
    have read : (if stat &&& DW_I2C_INTR_RX_FULL ≠ 0 then s.g.dwRead registers.rxFifo else s.g).cmdErr =
        s.g.cmdErr := by
      split
      · exact (readTurns_frame _ _ _).2.2.2
      · rfl
    dsimp only
    generalize (if stat &&& DW_I2C_INTR_RX_FULL ≠ 0 then s.g.dwRead registers.rxFifo else s.g) = g at read ⊢
    split
    · exact ⟨_, _, s.aborted, rfl, Or.inr ⟨noAbort, (transferTurns_cmdErr _ _ _ _).trans read, rfl⟩⟩
    · exact ⟨g, s.intrMask, s.aborted, rfl, Or.inr ⟨noAbort, read, rfl⟩⟩

theorem handle_released {stat : BitVec 32} {registers : Registers} (noAbort : stat &&& DW_I2C_INTR_TX_ABRT = 0)
    (noError : s.g.msgErr = 0) (writes : stat &&& DW_I2C_INTR_TX_EMPTY ≠ 0 → s.timedOut = false ∧ Valid s.g)
    (reads : stat &&& DW_I2C_INTR_RX_FULL ≠ 0 → s.timedOut = false) :
    (s.handle stat registers).g.msgErr = 0 ∧ (s.timedOut = true → (s.handle stat registers).g = s.g) := by
  unfold Driver.handle
  rw [if_neg (not_ne_iff.mpr noAbort)]
  have read : (if stat &&& DW_I2C_INTR_RX_FULL ≠ 0 then s.g.dwRead registers.rxFifo else s.g).msgErr = 0 ∧
      ((Valid s.g → Valid (if stat &&& DW_I2C_INTR_RX_FULL ≠ 0 then s.g.dwRead registers.rxFifo else s.g)) ∧
        (s.timedOut = true → (if stat &&& DW_I2C_INTR_RX_FULL ≠ 0 then s.g.dwRead registers.rxFifo else s.g) = s.g)) := by
    split
    · rename_i full
      obtain ⟨msgs, index, msgErr, -⟩ := readTurns_frame registers.rxFifo (s.g.msgs.length - s.g.rxIndex) s.g
      refine ⟨msgErr.trans noError, fun valid => ?_, fun late => ?_⟩
      · unfold Valid Globals.dwRead
        rw [msgs, index]
        exact valid
      · rw [reads full] at late
        cases late
    · exact ⟨noError, id, fun _ => rfl⟩
  dsimp only
  generalize (if stat &&& DW_I2C_INTR_RX_FULL ≠ 0 then s.g.dwRead registers.rxFifo else s.g) = g at read ⊢
  obtain ⟨msgErr, valid, same⟩ := read
  split
  · rename_i empty
    obtain ⟨timely, validBefore⟩ := writes empty
    refine ⟨(transferMsgs_msgErr (valid validBefore) _).trans msgErr, fun late => ?_⟩
    rw [timely] at late
    cases late
  · exact ⟨msgErr, same⟩

theorem Sound.within (sound : Sound s) {next : Driver} {place : Step} (here : next.call = some place)
    (returns : next.returns = s.returns) (running : Running next place) : Sound next where
  idle none := by
    rw [here] at none
    cases none
  running other there := by
    obtain rfl := Option.some.inj (here.symm.trans there)
    exact running
  returned := returns ▸ sound.returned

theorem Running.interrupt (running : Running s .wait) (waiting : s.produced = 0) (stat : BitVec 32)
    (g : Globals) (mask : BitVec 32) (aborted stopped : Bool)
    (abort : stat &&& DW_I2C_INTR_TX_ABRT ≠ 0 ∧ g.cmdErr ≠ 0 ∨
      stat &&& DW_I2C_INTR_TX_ABRT = 0 ∧ g.cmdErr = s.g.cmdErr ∧ aborted = s.aborted)
    (stop : stat &&& DW_I2C_INTR_STOP_DET ≠ 0 → stopped = true) :
    Running (if stat &&& (DW_I2C_INTR_TX_ABRT ||| DW_I2C_INTR_STOP_DET) ≠ 0 ∨ g.msgErr ≠ 0 then
      Driver.unlock { s with g := g, intrMask := mask, aborted := aborted, stopped := stopped }
      else { s with g := g, intrMask := mask, aborted := aborted, stopped := stopped }) .wait := by
  obtain ⟨permits, armed⟩ := running.place
  have timely : s.timedOut ≠ true := fun late => absurd (running.late late).1 (by rw [waiting]; decide)
  have abort' : aborted = true → g.cmdErr ≠ 0 := by
    intro now
    obtain ⟨-, error⟩ | ⟨-, error, before⟩ := abort
    · exact error
    · rw [error]
      exact running.abort (before ▸ now)
  split
  · rename_i ends
    refine ⟨⟨?_, fun none => ?_⟩, ?_, fun _ => ?_, fun late => absurd late timely, abort'⟩
    · exact congrArg (· + 1) permits
    · change s.produced + 1 = 0 at none
      omega
    · change s.produced + 1 ≤ 1
      omega
    · obtain bits | error := ends
      · rw [BitVec.and_or_distrib_left] at bits
        obtain ⟨-, error⟩ | ⟨noAbort, -, -⟩ := abort
        · exact Or.inr (Or.inl error)
        · refine Or.inl (stop fun noStop => bits ?_)
          rw [noAbort, noStop]
          rfl
      · exact Or.inr (Or.inr (Or.inl error))
  · refine ⟨⟨permits, armed⟩, running.once, fun released => ?_, fun late => absurd late timely, abort'⟩
    change 0 < s.produced at released
    omega

theorem Sound.interrupt (sound : Sound s) {registers : Registers} (turn : InTurn s (.interrupt registers)) :
    Sound (s.interrupt registers) := by
  unfold Driver.interrupt
  split
  · exact sound
  · rename_i enters
    obtain ⟨enabled, raised⟩ := not_or.mp enters
    have enabled : s.enabled = true := by simpa using enabled
    unfold InTurn at turn
    have turn := turn enabled raised
    dsimp only
    generalize registers.raw &&& s.intrMask = stat at turn ⊢
    obtain ⟨place, here⟩ : ∃ place, s.call = some place := by
      cases call : s.call with
      | none =>
        rw [(sound.idle call).1] at enabled
        cases enabled
      | some place => exact ⟨place, rfl⟩
    have running := sound.running place here
    obtain ⟨g, mask, aborted, handled, abort⟩ := handle_frame s stat registers
    by_cases released : 0 < s.produced
    · obtain ⟨bits, noError, writes, reads⟩ := turn released
      rw [BitVec.and_or_distrib_left] at bits
      obtain ⟨noAbort, noStop⟩ : stat &&& DW_I2C_INTR_TX_ABRT = 0 ∧ stat &&& DW_I2C_INTR_STOP_DET = 0 :=
        BitVec.or_eq_zero_iff.mp bits
      have after : (s.handle stat registers).g.msgErr = 0 ∧
          (s.timedOut = true → (s.handle stat registers).g = s.g) := handle_released noAbort noError writes reads
      obtain ⟨msgErr, same⟩ := after
      rw [handled] at msgErr same ⊢
      dsimp only at msgErr same
      rw [if_neg (not_ne_iff.mpr noStop), BitVec.and_or_distrib_left, noAbort, noStop]
      rw [if_neg (not_or.mpr ⟨fun some => some (BitVec.zero_or), not_ne_iff.mpr msgErr⟩)]
      obtain ⟨aborts, -⟩ | ⟨-, cmdErr, before⟩ := abort
      · exact absurd noAbort aborts
      · refine sound.within here rfl ⟨?_, running.once, fun _ => ?_, fun late => ?_, fun now => ?_⟩
        · have placed := running.place
          cases place with
          | bus | start => exact absurd (placed.1.symm.trans enabled) Bool.false_ne_true
          | wait => exact placed
          | cancel => exact placed
          | test => exact placed
          | disable => exact placed
        · obtain stopped | command | message | late := running.cause released
          · exact Or.inl stopped
          · exact Or.inr (Or.inl (cmdErr ▸ command))
          · exact absurd noError message
          · exact Or.inr (Or.inr (Or.inr late))
        · refine ⟨released, ?_⟩
          change g.status = _
          rw [same late]
          exact (running.late late).2
        · change g.cmdErr ≠ 0
          rw [cmdErr]
          exact running.abort (before ▸ now)
    · have waiting : s.produced = 0 := Nat.eq_zero_of_not_pos released
      have waits : place = .wait := by
        have placed := running.place
        cases place with
        | bus | start => exact absurd (placed.1.symm.trans enabled) Bool.false_ne_true
        | wait => rfl
        | cancel => exact absurd (waiting.symm.trans placed.2) (by decide)
        | test => exact absurd (waiting.symm.trans placed.2.2) (by decide)
        | disable => exact absurd (waiting.symm.trans placed.2.2.1) (by decide)
      subst waits
      rw [handled]
      by_cases stop : stat &&& DW_I2C_INTR_STOP_DET ≠ 0
      · rw [if_pos stop]
        have next := running.interrupt waiting stat g mask aborted true abort fun _ => rfl
        refine sound.within ?_ ?_ next
        · split <;> exact here
        · split <;> rfl
      · rw [if_neg stop]
        have next := running.interrupt waiting stat g mask aborted s.stopped abort fun some => absurd some stop
        refine sound.within ?_ ?_ next
        · split <;> exact here
        · split <;> rfl

theorem Sound.timeout (sound : Sound s) (turn : InTurn s .timeout) (armed : s.armed = true) : Sound s.timeout := by
  obtain ⟨place, here⟩ : ∃ place, s.call = some place := by
    cases call : s.call with
    | none =>
      rw [(sound.idle call).2.1] at armed
      cases armed
    | some place => exact ⟨place, rfl⟩
  have running := sound.running place here
  have placed := running.place
  unfold InTurn at turn
  unfold Driver.timeout
  dsimp only
  split
  · rename_i busy
    have waiting : s.produced = 0 := Nat.eq_zero_of_not_pos fun released => busy (turn.mp released)
    cases place with
    | bus => exact absurd (placed.2.1.symm.trans armed) Bool.false_ne_true
    | start => exact absurd placed.2.2.2.2 busy
    | wait =>
      refine sound.within here rfl ⟨⟨congrArg (· + 1) placed.1, nofun⟩, ?_, fun _ => Or.inr (Or.inr (Or.inr rfl)),
        fun _ => ⟨Nat.succ_pos _, rfl⟩, running.abort⟩
      change s.produced + 1 ≤ 1
      omega
    | cancel => exact absurd (waiting.symm.trans placed.2) (by decide)
    | test => exact absurd (waiting.symm.trans placed.2.2) (by decide)
    | disable => exact absurd (waiting.symm.trans placed.2.2.1) (by decide)
  · rename_i free
    have released := turn.mpr (not_ne_iff.mp free)
    refine sound.within here rfl { running with place := ?_ }
    cases place with
    | bus => exact absurd (placed.2.1.symm.trans armed) Bool.false_ne_true
    | start => exact absurd placed.2.2.2.1 released.ne'
    | wait => exact ⟨placed.1, fun none => absurd none released.ne'⟩
    | cancel => exact placed
    | test | disable => exact absurd (placed.1.symm.trans armed) Bool.false_ne_true

theorem Sound.returns (sound : Sound s) {next : Driver} {ret : Int} {taken : ℕ} (same : next.returns = s.returns)
    (quiet : next.enabled = false ∧ next.armed = false ∧ next.permits = 0) (own : taken = next.produced)
    (zero : ret = 0 → next.stopped = true ∧ next.aborted = false ∧ next.g.msgErr = 0 ∧ next.timedOut = false) :
    Sound (next.return ret taken) where
  idle _ := quiet
  running place there := by cases there
  returned result there := by
    change result ∈ next.returns ++ [_] at there
    rw [same] at there
    cases List.mem_append.mp there with
    | inl before => exact sound.returned result before
    | inr new =>
      obtain rfl := List.mem_singleton.mp new
      exact ⟨own, zero⟩

theorem Sound.transfer (sound : Sound s) {ready : Bool} {next : Driver} (stepped : s.transfer ready = some next) :
    Sound next := by
  obtain ⟨place, here, stepped⟩ := Option.bind_eq_some_iff.mp stepped
  have running := sound.running place here
  obtain ⟨placed, once, cause, late, abort⟩ := running
  cases place with
  | bus =>
    obtain ⟨enabled, armed, permits, produced, status⟩ := placed
    obtain rfl := Option.some.inj stepped
    split
    · exact sound.within rfl rfl ⟨⟨enabled, rfl, permits, produced, status⟩, once, cause, late, abort⟩
    · exact sound.returns rfl ⟨enabled, armed, permits⟩ produced.symm fun zero => absurd zero (by decide)
  | start =>
    obtain ⟨-, armed, permits, produced, -⟩ := placed
    obtain rfl := Option.some.inj stepped
    exact sound.within rfl rfl ⟨⟨permits.trans produced.symm, fun _ => armed⟩, once, cause, late, abort⟩
  | wait =>
    obtain ⟨some, rfl⟩ := ite_some_none_eq_some.mp stepped
    have permits := placed.1
    refine sound.within rfl rfl ⟨⟨?_, ?_⟩, once, cause, late, abort⟩
    · change s.permits - 1 = 0
      omega
    · change s.produced = 1
      omega
  | cancel =>
    obtain rfl := Option.some.inj stepped
    exact sound.within rfl rfl ⟨⟨rfl, placed⟩, once, cause, late, abort⟩
  | test =>
    obtain ⟨armed, permits, produced⟩ := placed
    dsimp only at stepped
    split at stepped
    · obtain rfl := Option.some.inj stepped
      exact sound.returns rfl ⟨rfl, armed, permits⟩ produced.symm fun zero => absurd zero (by decide)
    · rename_i other
      obtain rfl := Option.some.inj stepped
      have timely : s.timedOut = false := by
        cases timedOut : s.timedOut with
        | true => exact absurd (late timedOut).2 other
        | false => rfl
      exact sound.within rfl rfl ⟨⟨armed, permits, produced, timely⟩, once, cause, late, abort⟩
  | disable =>
    obtain ⟨armed, permits, produced, timely⟩ := placed
    obtain rfl := Option.some.inj stepped
    refine sound.returns rfl ⟨rfl, armed, permits⟩ produced.symm fun zero => ?_
    obtain ⟨noError, noCommand⟩ := result_zero zero
    refine ⟨?_, ?_, noError, timely⟩
    · obtain stopped | command | message | timedOut := cause (by omega)
      · exact stopped
      · exact absurd noCommand command
      · exact absurd noError message
      · rw [timely] at timedOut
        cases timedOut
    · change s.aborted = false
      cases aborted : s.aborted with
      | true => exact absurd noCommand (abort aborted)
      | false => rfl

/-- An event in turn keeps the end of the transfer with its caller. -/
theorem Sound.step {next : Driver} (event : Event) (sound : Sound s) (turn : InTurn s event)
    (stepped : Driver.step s event = some next) : Sound next := by
  cases event with
  | call msgs =>
    obtain ⟨free, rfl⟩ := ite_some_none_eq_some.mp stepped
    obtain ⟨enabled, armed, permits⟩ := sound.idle free
    exact sound.within rfl rfl ⟨⟨enabled, armed, permits, rfl, rfl⟩, Nat.zero_le _, nofun, nofun, nofun⟩
  | transfer ready => exact sound.transfer stepped
  | interrupt registers =>
    obtain rfl := Option.some.inj stepped
    exact sound.interrupt turn
  | timeout =>
    obtain ⟨armed, rfl⟩ := ite_some_none_eq_some.mp stepped
    exact sound.timeout turn armed

theorem Sound.ends (sound : Sound s) : Ends s where
  released here := by
    obtain ⟨permits, armed⟩ := (sound.running _ here).place
    by_cases none : s.produced = 0
    · exact Or.inl (armed none)
    · exact Or.inr (permits ▸ Nat.pos_of_ne_zero none)
  own none := (sound.idle none).2.2
  once here := by
    obtain ⟨place, call⟩ := Option.ne_none_iff_exists'.mp here
    have running := sound.running place call
    refine ⟨running.once, ?_⟩
    have placed := running.place
    cases place with
    | bus | start => exact placed.2.2.1.le.trans (Nat.zero_le _)
    | wait => exact placed.1.le
    | cancel => exact placed.1.le.trans (Nat.zero_le _)
    | test | disable => exact placed.2.1.le.trans (Nat.zero_le _)
  returned := sound.returned

end Interrupt

/-- In every run whose steps all meet the guard, each call is released, takes the permit that was produced for it, and
returns 0 only after a stop without errors. -/
theorem transfers_end_once (g : Globals) (events : List Event) (s : Driver)
    (inTurn : Guarded step InTurn (.probed g) events) (ran : run step (.probed g) events = some s) : Ends s := by
  have start : Sound (.probed g) := ⟨fun _ => ⟨rfl, rfl, rfl⟩, nofun, nofun⟩
  have sound := run_invariant_of_guarded Sound start inTurn ran @fun _ event _ sound turn stepped =>
    sound.step event turn stepped
  exact sound.ends

instance (g : Globals) : Decidable (Valid g) := inferInstanceAs (Decidable (∀ first ∈ g.msgs[g.txIndex]?, _))

instance (s : Driver) : ∀ event, Decidable (InTurn s event)
  | .interrupt registers => inferInstanceAs (Decidable (s.enabled = true →
      registers.raw &&& ~~~ DW_I2C_INTR_ACTIVITY ≠ 0 → 0 < s.produced → _ ∧ _ ∧ _ ∧ _))
  | .timeout => inferInstanceAs (Decidable (_ ↔ _))
  | .call _ | .transfer _ => isTrue trivial

/-- An interrupt finds no bytes and empty FIFOs. -/
def quietRegisters (raw : BitVec 32) : Registers := ⟨raw, 0, fun _ => [], fun _ => (0, 0)⟩

/-- A call that succeeds, and one of a message of nine bytes whose watchdog ends in the middle -/
def successAndTimeout : List Event :=
  [.call [⟨5, 0, [7]⟩], .transfer true, .transfer true, .interrupt (quietRegisters 0x10),
    .interrupt (quietRegisters 0x200), .transfer true, .transfer true, .transfer true, .transfer true,
    .call [⟨5, 0, [1, 2, 3, 4, 5, 6, 7, 8, 9]⟩], .transfer true, .transfer true, .interrupt (quietRegisters 0x10),
    .timeout, .transfer true, .transfer true, .transfer true]

theorem transfers_end_once_successAndTimeout :
    ∃ s, run step (.probed .clear) successAndTimeout = some s ∧ s.returns.map Return.ret = [0, -116] ∧ Ends s := by
  refine exists_final (fun s => s.returns.map Return.ret) [0, -116] (by decide +kernel) fun s ran returns => ?_
  refine ⟨returns, transfers_end_once .clear successAndTimeout s ?_ ran⟩
  decide +kernel

/-- The controller raises no interrupt, and the watchdog ends. -/
def silentController : List Event := [.call [⟨5, 0, [7]⟩], .transfer true, .transfer true, .timeout]

/-- The call waits for ever. -/
theorem dw_timeout_leaves_waiting :
    ∃ s, run step (.probed .clear) silentController = some s ∧ s.call = some .wait ∧ s.permits = 0 ∧ ¬Ends s := by
  refine exists_final (fun s => (s.call, s.permits, s.armed)) (some .wait, 0, false) (by decide +kernel)
    fun s ran states => ?_
  obtain ⟨call, permits, armed⟩ : _ ∧ _ ∧ _ := by simpa only [Prod.mk.injEq] using states
  refine ⟨call, permits, fun ends => ?_⟩
  obtain runs | permit := ends.released call
  · rw [armed] at runs
    cases runs
  · omega

end Driver

end Phabos.DwI2c
