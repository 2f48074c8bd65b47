import Phabos.Construction.Gpio.Tca64xx
import Phabos.Library.LastWrite
import Phabos.Library.Run

namespace Phabos.Tca64xx
open Library Function List

/-- The bits of a pin that the operations change -/
inductive Port where
  | output
  | config
  | polarity
  deriving DecidableEq, Repr

def Port.reg : Port → Part → ℕ → ℕ
  | .output => getOutputReg
  | .config => getConfigReg
  | .polarity => getPolarityReg

/-- The bits of a pin in the registers of the chip -/
def pinBits (part : Part) (regs : ℕ → BitVec 8) (which : ℕ) (port : Port) : Bool :=
  (regs (port.reg part which)).getLsbD (which % 8)

/-- What an operation makes of the bits of its pin. A pin is an input when its bit is set. -/
def Operation.writes : Operation → Port → Option Bool
  | .set _ value, .output | .setDirectionOut _ value, .output => some (decide (value ≠ 0))
  | .setDirectionIn _, .config => some true
  | .setDirectionOut _ _, .config => some false
  | .setPolarityInverted _ inverted, .polarity => some (decide (uint8 inverted ≠ 0))
  | _, _ => none

/-- The operations on a pin that succeeded -/
def succeeded (ended : List Ended) (which : ℕ) : List Operation :=
  (ended.filter fun call => call.ret = 0 ∧ call.operation.which = which).map Ended.operation

/-- When no call is in progress, each pin is as some order of the successful calls on it makes it. A call with a pin that
the chip does not have returned an error without a transfer. -/
structure Independent (part : Part) (regs : ℕ → BitVec 8) (s : Expander) : Prop where
  sequential : (∀ caller, s.calls caller = none) → ∀ which < getNrGpios part,
    ∃ order, order.Perm (succeeded s.ended which) ∧
      pinBits part s.regs which = replay Operation.writes order (pinBits part regs which)
  outside : ∀ call ∈ s.ended, getNrGpios part ≤ call.operation.which → call.ret ≠ 0 ∧ call.accesses = 0

/-- A call names a pin of the chip. When it writes a register, the bits of the other pins are as it has read them; and no
transfer fails after its first write. -/
def Undisturbed (part : Part) (s : Expander) : Event → Prop
  | .call _ operation => operation.which < getNrGpios part
  | .access caller ret => ∀ call ∈ s.calls caller, (call.done ≠ [] → ret = 0) ∧
      ∀ update ∈ call.pending.head?, ∀ val ∈ call.val, ret = 0 → update.apply val = update.apply (s.regs update.reg)

instance (part : Part) (s : Expander) : ∀ event, Decidable (Undisturbed part s event)
  | .call _ operation => inferInstanceAs (Decidable (operation.which < getNrGpios part))
  | .access caller _ => inferInstanceAs (Decidable (∀ call ∈ s.calls caller, _ ∧ _))

section Registers
variable {part : Part} {which other : ℕ}

theorem uint8_inside (inside : which < getNrGpios part) : uint8 which = which := by
  have few : getNrGpios part ≤ 24 := by cases part <;> decide
  unfold uint8
  omega

theorem getReg_inside (first : Part → ℕ) (inside : which < getNrGpios part) :
    getReg first part which = first part + which / 8 := by
  unfold getReg
  rw [uint8_inside inside, if_neg (Nat.not_le.mpr inside)]

theorem reg_injective {port another : Port} (inside : which < getNrGpios part) (within : other < getNrGpios part)
    (reg : port.reg part which = another.reg part other) (bit : which % 8 = other % 8) :
    port = another ∧ which = other := by
  cases port <;> cases another <;>
    simp only [Port.reg, getOutputReg, getConfigReg, getPolarityReg, getReg_inside _ inside,
      getReg_inside _ within] at reg <;>
    cases part <;> simp only [getNrGpios] at inside within reg <;>
    first
      | exact ⟨rfl, by omega⟩
      | omega

theorem Update.apply_bit (update : Update) (val : BitVec 8) (small : update.bit < 8) {bit : ℕ} (within : bit < 8) :
    (update.apply val).getLsbD bit = if bit = update.bit then update.value else val.getLsbD bit := by
  have mask : (1#8 <<< update.bit).getLsbD bit = decide (bit = update.bit) := by
    change (BitVec.twoPow 8 update.bit).getLsbD bit = _
    rw [BitVec.getLsbD_twoPow, decide_eq_true small, Bool.true_and]
    exact decide_eq_decide.mpr eq_comm
  unfold Update.apply
  cases update.value with
  | true =>
    rw [if_pos rfl, BitVec.getLsbD_or, mask]
    by_cases same : bit = update.bit <;> simp [same]
  | false =>
    rw [if_neg Bool.false_ne_true, BitVec.getLsbD_and, BitVec.getLsbD_not, mask, decide_eq_true within]
    by_cases same : bit = update.bit <;> simp [same]

/-- The bit of a pin that an update writes -/
def Update.writes (part : Part) (which : ℕ) (update : Update) (port : Port) : Option Bool :=
  if update.reg = port.reg part which ∧ update.bit = which % 8 then some update.value else none

section
variable {operation : Operation} (inside : operation.which < getNrGpios part)
include inside

theorem Operation.updates_eq :
    operation.updates part = [Port.config, .output, .polarity].filterMap fun port =>
      (operation.writes port).map (Update.mk (port.reg part operation.which) (operation.which % 8)) := by
  cases operation with
  | set => rfl
  | setDirectionIn => rfl
  | setDirectionOut => rfl
  | setPolarityInverted which inverted =>
    have same : uint8 which = which := uint8_inside inside
    change [Update.mk (getPolarityReg part which) (uint8 which % 8) _] = _
    rw [same]
    rfl

theorem Operation.mem_updates (update : Update) :
    update ∈ operation.updates part ↔ ∃ port value, operation.writes port = some value ∧
      update = ⟨port.reg part operation.which, operation.which % 8, value⟩ := by
  rw [Operation.updates_eq inside, mem_filterMap]
  constructor
  · rintro ⟨port, -, made⟩
    obtain ⟨value, written, rfl⟩ := Option.map_eq_some_iff.mp made
    exact ⟨port, value, written, rfl⟩
  · rintro ⟨port, value, written, rfl⟩
    refine ⟨port, ?_, by rw [written, Option.map_some]⟩
    cases port <;> decide

theorem Operation.updates_writes {update : Update} (there : update ∈ operation.updates part)
    (within : which < getNrGpios part) {port : Port} {value : Bool}
    (written : update.writes part which port = some value) :
    operation.which = which ∧ operation.writes port = some value := by
  obtain ⟨own, given, writes, rfl⟩ := (Operation.mem_updates inside update).mp there
  obtain ⟨⟨reg, bit⟩, same⟩ := Option.ite_none_right_eq_some.mp written
  obtain ⟨rfl, pin⟩ := reg_injective inside within reg bit
  exact ⟨pin, writes.trans same⟩

end

theorem pinBits_write (regs : ℕ → BitVec 8) {update : Update} (small : update.bit < 8) (which : ℕ) :
    pinBits part (Function.update regs update.reg (update.apply (regs update.reg))) which =
      overwrite (Update.writes part which) (pinBits part regs which) update := by
  funext port
  unfold pinBits overwrite Update.writes
  by_cases reg : update.reg = port.reg part which
  · rw [← reg, update_self, Update.apply_bit update _ small (Nat.mod_lt _ (by decide))]
    by_cases bit : update.bit = which % 8
    · rw [if_pos bit.symm, if_pos ⟨rfl, bit⟩, Option.getD_some]
    · rw [if_neg (Ne.symm bit), if_neg (fun both => bit both.2), Option.getD_none, reg]
  · rw [update_of_ne (Ne.symm reg), if_neg (fun both => reg both.1), Option.getD_none]

end Registers

/-- What holds between the steps of a run -/
structure Sound (part : Part) (regs : ℕ → BitVec 8) (s : Expander) : Prop where
  bits : ∀ which < getNrGpios part,
    pinBits part s.regs which = replay (Update.writes part which) s.written (pinBits part regs which)
  origin : ∀ update ∈ s.written, (∃ call ∈ s.ended, call.ret = 0 ∧ update ∈ call.operation.updates part) ∨
    ∃ caller call, s.calls caller = some call ∧ update ∈ call.done
  complete : ∀ call ∈ s.ended, call.ret = 0 → ∀ update ∈ call.operation.updates part, update ∈ s.written
  pins : ∀ call ∈ s.ended, call.operation.which < getNrGpios part
  calls : ∀ caller call, s.calls caller = some call → call.operation.which < getNrGpios part ∧
    call.done ++ call.pending = call.operation.updates part ∧ ∀ update ∈ call.done, update ∈ s.written

section Step
variable {part : Part} {regs : ℕ → BitVec 8} {s s' : Expander} {caller : ℕ} {call : Call}

theorem error_ne_zero (operation : Operation) {ret : Int} (failed : ret ≠ 0) : operation.error ret ≠ 0 := by
  cases operation with
  | setPolarityInverted =>
    change - EIO ≠ 0
    decide
  | set => exact failed
  | setDirectionIn => exact failed
  | setDirectionOut => exact failed

section
variable (sound : Sound part regs s)
include sound

theorem Sound.failed (here : s.calls caller = some call) (fresh : call.done = []) {ret : Int} (failed : ret ≠ 0)
    (accesses : ℕ) : Sound part regs (s.return caller call ret accesses) where
  bits := sound.bits
  origin update there := by
    obtain ⟨ended, known, rest⟩ | ⟨other, running, found, done⟩ := sound.origin update there
    · exact Or.inl ⟨ended, mem_append_left _ known, rest⟩
    · refine Or.inr ⟨other, running, ?_, done⟩
      have differs : other ≠ caller := by
        rintro rfl
        obtain rfl := Option.some.inj (here.symm.trans found)
        rw [fresh] at done
        cases done
      exact (update_of_ne differs _ _).trans found
  complete ended there success := by
    cases mem_append.mp there with
    | inl before => exact sound.complete ended before success
    | inr new =>
      obtain rfl := mem_singleton.mp new
      exact absurd success failed
  pins ended there := by
    cases mem_append.mp there with
    | inl before => exact sound.pins ended before
    | inr new =>
      obtain rfl := mem_singleton.mp new
      exact (sound.calls caller call here).1
  calls other running found := by
    change Function.update s.calls caller none other = some running at found
    by_cases own : other = caller
    · rw [own, update_self] at found
      cases found
    · rw [update_of_ne own] at found
      exact sound.calls other running found

theorem Sound.goes {next : Call} (inside : next.operation.which < getNrGpios part)
    (updates : next.done ++ next.pending = next.operation.updates part)
    (done : ∀ update, update ∈ next.done ↔ ∃ call, s.calls caller = some call ∧ update ∈ call.done) :
    Sound part regs { s with calls := Function.update s.calls caller (some next) } where
  bits := sound.bits
  origin update there := by
    obtain known | ⟨other, running, found, written⟩ := sound.origin update there
    · exact Or.inl known
    · by_cases own : other = caller
      · exact Or.inr ⟨caller, next, update_self _ _ _, (done update).mpr ⟨running, own ▸ found, written⟩⟩
      · exact Or.inr ⟨other, running, (update_of_ne own _ _).trans found, written⟩
  complete := sound.complete
  pins := sound.pins
  calls other running found := by
    by_cases own : other = caller
    · change Function.update s.calls caller (some next) other = some running at found
      rw [own, update_self] at found
      obtain rfl := Option.some.inj found
      refine ⟨inside, updates, fun update there => ?_⟩
      obtain ⟨before, here, written⟩ := (done update).mp there
      exact (sound.calls caller before here).2.2 update written
    · change Function.update s.calls caller (some next) other = some running at found
      rw [update_of_ne own] at found
      exact sound.calls other running found

theorem Sound.bits_wrote {update : Update} {operation : Operation} (inside : operation.which < getNrGpios part)
    (own : update ∈ operation.updates part) {val : BitVec 8}
    (same : update.apply val = update.apply (s.regs update.reg)) (which : ℕ) (within : which < getNrGpios part) :
    pinBits part (Function.update s.regs update.reg (update.apply val)) which =
      replay (Update.writes part which) (s.written ++ [update]) (pinBits part regs which) := by
  obtain ⟨_, _, _, rfl⟩ := (Operation.mem_updates inside update).mp own
  rw [same, pinBits_write s.regs (Nat.mod_lt _ (by decide)), sound.bits which within, replay_append]
  rfl

theorem Sound.wrote (here : s.calls caller = some call) {update : Update} {rest : List Update}
    (pending : call.pending = update :: rest) {val : BitVec 8}
    (same : update.apply val = update.apply (s.regs update.reg)) (accesses : ℕ) : Sound part regs { s with
      regs := Function.update s.regs update.reg (update.apply val)
      calls := Function.update s.calls caller (some ⟨call.operation, call.done ++ [update], rest, none, accesses⟩)
      written := s.written ++ [update] } := by
  obtain ⟨inside, updates, done⟩ := sound.calls caller call here
  have own : update ∈ call.operation.updates part := by
    rw [← updates, pending]
    exact mem_append_right _ mem_cons_self
  refine ⟨sound.bits_wrote inside own same, fun one there => ?_, fun ended known success one there => ?_, sound.pins,
    fun other running found => ?_⟩
  · have mine (there : one ∈ call.done ++ [update]) : ∃ other running,
        Function.update s.calls caller (some ⟨call.operation, call.done ++ [update], rest, none, accesses⟩) other =
          some running ∧ one ∈ running.done :=
      ⟨caller, _, update_self _ _ _, there⟩
    cases mem_append.mp there with
    | inl before =>
      obtain known | ⟨other, running, found, written⟩ := sound.origin one before
      · exact Or.inl known
      · by_cases self : other = caller
        · rw [self] at found
          obtain rfl := Option.some.inj (here.symm.trans found)
          exact Or.inr (mine (mem_append_left _ written))
        · exact Or.inr ⟨other, running, (update_of_ne self _ _).trans found, written⟩
    | inr new => exact Or.inr (mine (mem_append_right _ new))
  · exact mem_append_left _ (sound.complete ended known success one there)
  · change Function.update s.calls caller _ other = some running at found
    by_cases self : other = caller
    · rw [self, update_self] at found
      obtain rfl := Option.some.inj found
      refine ⟨inside, ?_, fun one there => ?_⟩
      · rw [← updates, pending, append_assoc, singleton_append]
      · cases mem_append.mp there with
        | inl before => exact mem_append_left _ (done one before)
        | inr new => exact mem_append_right _ new
    · rw [update_of_ne self] at found
      obtain ⟨inside, updates, done⟩ := sound.calls other running found
      exact ⟨inside, updates, fun one there => mem_append_left _ (done one there)⟩

theorem Sound.finished (here : s.calls caller = some call) (pending : call.pending = []) (accesses : ℕ) :
    Sound part regs (s.return caller call 0 accesses) := by
  obtain ⟨inside, updates, done⟩ := sound.calls caller call here
  rw [pending, append_nil] at updates
  refine ⟨sound.bits, fun one there => ?_, fun ended known success one there => ?_, fun ended known => ?_,
    fun other running found => ?_⟩
  · obtain ⟨ended, known, rest⟩ | ⟨other, running, found, written⟩ := sound.origin one there
    · exact Or.inl ⟨ended, mem_append_left _ known, rest⟩
    · by_cases self : other = caller
      · rw [self] at found
        obtain rfl := Option.some.inj (here.symm.trans found)
        exact Or.inl ⟨_, mem_append_right _ (mem_singleton_self _), rfl, updates ▸ written⟩
      · exact Or.inr ⟨other, running, (update_of_ne self _ _).trans found, written⟩
  · cases mem_append.mp known with
    | inl before => exact sound.complete ended before success one there
    | inr new =>
      obtain rfl := mem_singleton.mp new
      exact done one (updates ▸ there)
  · cases mem_append.mp known with
    | inl before => exact sound.pins ended before
    | inr new =>
      obtain rfl := mem_singleton.mp new
      exact inside
  · change Function.update s.calls caller none other = some running at found
    by_cases self : other = caller
    · rw [self, update_self] at found
      cases found
    · rw [update_of_ne self] at found
      exact sound.calls other running found

theorem Sound.access (here : s.calls caller = some call) {ret : Int}
    (undisturbed : (call.done ≠ [] → ret = 0) ∧ ∀ update ∈ call.pending.head?, ∀ val ∈ call.val, ret = 0 → update.apply val = update.apply (s.regs update.reg))
    (stepped : s.access caller call ret = some s') : Sound part regs s' := by
  obtain ⟨fresh, same⟩ := undisturbed
  obtain ⟨inside, updates, done⟩ := sound.calls caller call here
  have unwritten (failed : ret ≠ 0) : call.done = [] := by
    by_contra some
    exact failed (fresh some)
  unfold Expander.access at stepped
  cases pending : call.pending with
  | nil =>
    rw [pending] at stepped
    cases stepped
  | cons update rest =>
    rw [pending] at stepped same
    cases val : call.val with
    | none =>
      rw [val] at stepped
      dsimp only at stepped
      rw [if_neg (not_lt.mpr (Int.natCast_nonneg _))] at stepped
      split at stepped
      · rename_i failed
        obtain rfl := Option.some.inj stepped
        exact sound.failed here (unwritten failed) (error_ne_zero _ failed) _
      · obtain rfl := Option.some.inj stepped
        refine sound.goes inside (by rw [← pending]; exact updates) fun one => ⟨fun there => ⟨call, here, there⟩, ?_⟩
        rintro ⟨before, found, there⟩
        obtain rfl := Option.some.inj (here.symm.trans found)
        exact there
    | some value =>
      rw [val] at stepped same
      dsimp only at stepped
      split at stepped
      · rename_i failed
        obtain rfl := Option.some.inj stepped
        exact sound.failed here (unwritten failed) (error_ne_zero _ failed) _
      · rename_i success
        have kept := same update rfl value rfl (not_ne_iff.mp success)
        split at stepped
        · rename_i last
          obtain rfl := Option.some.inj stepped
          subst last
          have finished := (sound.wrote here pending kept (call.accesses + 1)).finished
            (update_self caller _ s.calls) rfl (call.accesses + 1)
          simpa only [Expander.return, Function.update_idem] using finished
        · obtain rfl := Option.some.inj stepped
          exact sound.wrote here pending kept _

/-- An undisturbed step keeps the registers those of the accesses. -/
theorem Sound.step {event : Event} (undisturbed : Undisturbed part s event) (stepped : step part s event = some s') :
    Sound part regs s' := by
  cases event with
  | call caller operation =>
    obtain ⟨idle, rfl⟩ := Option.ite_some_none_eq_some.mp stepped
    refine sound.goes undisturbed rfl fun update => ⟨nofun, ?_⟩
    rintro ⟨call, here, -⟩
    rw [idle] at here
    cases here
  | access caller ret =>
    obtain ⟨call, here, accessed⟩ := Option.bind_eq_some_iff.mp stepped
    exact sound.access here (undisturbed call here) accessed

end

theorem Sound.start (part : Part) (regs : ℕ → BitVec 8) : Sound part regs (Expander.start regs) where
  bits _ _ := rfl
  origin := nofun
  complete := nofun
  pins := nofun
  calls := nofun

end Step

section Order
variable {part : Part} {regs : ℕ → BitVec 8} {s : Expander} {which : ℕ}

variable {operation : Operation}

theorem mem_succeeded {ended : List Ended} : operation ∈ succeeded ended which ↔
    ∃ call ∈ ended, call.ret = 0 ∧ call.operation.which = which ∧ call.operation = operation := by
  unfold succeeded
  rw [mem_map]
  constructor
  · rintro ⟨call, found, rfl⟩
    obtain ⟨there, kept⟩ := mem_filter.mp found
    obtain ⟨success, pin⟩ := of_decide_eq_true kept
    exact ⟨call, there, success, pin, rfl⟩
  · rintro ⟨call, there, success, pin, rfl⟩
    exact ⟨call, mem_filter.mpr ⟨there, decide_eq_true ⟨success, pin⟩⟩, rfl⟩

theorem Sound.settled (sound : Sound part regs s) (quiet : ∀ caller, s.calls caller = none)
    (within : which < getNrGpios part) (port : Port) :
    (∃ operation ∈ succeeded s.ended which, operation.writes port = some (pinBits part s.regs which port)) ∨
      (∀ operation ∈ succeeded s.ended which, operation.writes port = none) ∧
        pinBits part s.regs which port = pinBits part regs which port := by
  rw [sound.bits which within]
  obtain ⟨update, there, written⟩ | ⟨unwritten, same⟩ :=
    @replay_cases _ _ _ (Update.writes part which) s.written (pinBits part regs which) port
  · obtain ⟨call, known, success, own⟩ | ⟨caller, call, here, -⟩ := sound.origin update there
    · obtain ⟨pin, wrote⟩ := Operation.updates_writes (sound.pins call known) own within written
      exact Or.inl ⟨call.operation, mem_succeeded.mpr ⟨call, known, success, pin, rfl⟩, wrote⟩
    · rw [quiet caller] at here
      cases here
  · refine Or.inr ⟨fun operation there => ?_, same⟩
    obtain ⟨call, known, success, rfl, rfl⟩ := mem_succeeded.mp there
    cases wrote : call.operation.writes port with
    | none => rfl
    | some value =>
      have own := (Operation.mem_updates (sound.pins call known) _).mpr ⟨port, value, wrote, rfl⟩
      have silent := unwritten _ (sound.complete call known success _ own)
      unfold Update.writes at silent
      rw [if_pos ⟨rfl, rfl⟩] at silent
      cases silent

theorem Operation.writes_input (written : operation.writes .config = some true) {port : Port}
    (other : port ≠ .config) : operation.writes port = none := by
  cases operation with
  | setDirectionIn => cases port <;> first | rfl | exact absurd rfl other
  | set => cases written
  | setDirectionOut => cases written
  | setPolarityInverted => cases written

theorem Operation.writes_polarity {value : Bool}
    (written : operation.writes .polarity = some value) {port : Port} (other : port ≠ .polarity) :
    operation.writes port = none := by
  cases operation with
  | setPolarityInverted => cases port <;> first | rfl | exact absurd rfl other
  | set => cases written
  | setDirectionIn => cases written
  | setDirectionOut => cases written

theorem Operation.writes_output {value : Bool} (written : operation.writes .output = some value) :
    operation.writes .config = none ∨ operation.writes .config = some false := by
  cases operation with
  | set => exact Or.inl rfl
  | setDirectionOut => exact Or.inr rfl
  | setDirectionIn => cases written
  | setPolarityInverted => cases written

/-- The direction and the output of a pin: the call that made it an input goes last, or the last write of the output. -/
theorem exists_order_direction {operations : List Operation} {bits last : Port → Bool}
    (settled : ∀ port, (∃ operation ∈ operations, operation.writes port = some (last port)) ∨
      (∀ operation ∈ operations, operation.writes port = none) ∧ last port = bits port) :
    ∃ order, order.Perm operations ∧ replay Operation.writes order bits .config = last .config ∧
      replay Operation.writes order bits .output = last .output := by
  have moved {order : List Operation} (perm : order.Perm operations) (port : Port) :
      (∃ operation ∈ order, operation.writes port = some (last port)) ∨
        (∀ operation ∈ order, operation.writes port = none) ∧ last port = bits port := by
    simpa only [perm.mem_iff] using settled port
  cases direction : last .config with
  | true =>
    obtain ⟨first, first_perm, output, -⟩ := exists_settled (settled .output)
    obtain ⟨order, perm, config, kept⟩ := exists_settled (moved first_perm .config)
    refine ⟨order, perm.trans first_perm, config.trans direction, kept .output (fun operation written => ?_) output⟩
    rw [direction] at written
    exact Or.inl (Operation.writes_input written (by decide))
  | false =>
    obtain ⟨first, first_perm, config, -⟩ := exists_settled (settled .config)
    obtain ⟨order, perm, output, kept⟩ := exists_settled (moved first_perm .output)
    refine ⟨order, perm.trans first_perm, ?_, output⟩
    refine (kept .config (fun operation written => ?_) config).trans direction
    rw [direction]
    exact Operation.writes_output written

theorem exists_order {operations : List Operation} {bits last : Port → Bool}
    (settled : ∀ port, (∃ operation ∈ operations, operation.writes port = some (last port)) ∨
      (∀ operation ∈ operations, operation.writes port = none) ∧ last port = bits port) :
    ∃ order, order.Perm operations ∧ last = replay Operation.writes order bits := by
  obtain ⟨first, first_perm, config, output⟩ := exists_order_direction settled
  have moved : (∃ operation ∈ first, operation.writes .polarity = some (last .polarity)) ∨
      (∀ operation ∈ first, operation.writes .polarity = none) ∧ last .polarity = bits .polarity := by
    simpa only [first_perm.mem_iff] using settled .polarity
  obtain ⟨order, perm, polarity, kept⟩ := exists_settled moved
  refine ⟨order, perm.trans first_perm, funext fun port => Eq.symm ?_⟩
  cases port with
  | polarity => exact polarity
  | config => exact kept .config (fun _ written => Or.inl (Operation.writes_polarity written (by decide))) config
  | output => exact kept .output (fun _ written => Or.inl (Operation.writes_polarity written (by decide))) output

/-- Each pin is as its own operations have left it. -/
theorem Sound.independent (sound : Sound part regs s) : Independent part regs s where
  sequential quiet _ within := exists_order (sound.settled quiet within)
  outside call there beyond := absurd (sound.pins call there) (Nat.not_lt.mpr beyond)

end Order

/-- In a run where no write undoes another, the pins of a chip are independent after every step. -/
theorem pins_independent (part : Part) (regs : ℕ → BitVec 8) {events : List Event} {s : Expander}
    (guarded : Guarded (step part) (Undisturbed part) (Expander.start regs) events)
    (ran : run (step part) (Expander.start regs) events = some s) : Independent part regs s := by
  have sound := run_invariant_of_guarded (Sound part regs) (Sound.start part regs) guarded ran fun sound => sound.step
  exact sound.independent

/-- While a pin is made an output, another pin of its registers is made an input. -/
def outputAndInput : List Event :=
  [.call 0 (.setDirectionOut 1 0), .access 0 0, .access 0 0, .call 1 (.setDirectionIn 2), .access 0 0, .access 1 0,
    .access 1 0, .access 0 0]

theorem pins_independent_outputAndInput :
    ∃ s, run (step .tca6416) (Expander.start fun _ => 0xF9) outputAndInput = some s ∧
      (s.regs 2, s.regs 6) = (0xF9, 0xFD) ∧ s.ended.map Ended.ret = [0, 0] ∧
      Independent .tca6416 (fun _ => 0xF9) s := by
  refine exists_final (fun s => ((s.regs 2, s.regs 6), s.ended.map Ended.ret))
    ((0xF9, 0xFD), [0, 0]) (by decide +kernel) fun s ran states => ?_
  obtain ⟨registers, ended⟩ := Prod.mk.inj states
  refine ⟨registers, ended, pins_independent .tca6416 _ ?_ ran⟩
  decide +kernel

/-- Two tasks read the register of two pins before each of them writes it. -/
def twoSets : List Event :=
  [.call 0 (.set 0 1), .call 1 (.set 1 1), .access 0 0, .access 1 0, .access 0 0, .access 1 0]

/-- Both calls return 0, and the second one takes back the first. -/
theorem tca64xx_set_loses_update :
    ∃ s, run (step .tca6416) (Expander.start fun _ => 0) twoSets = some s ∧
      s.ended = [⟨.set 0 1, 0, 2⟩, ⟨.set 1 1, 0, 2⟩] ∧ pinBits .tca6416 s.regs 0 .output = false ∧
      ¬Independent .tca6416 (fun _ => 0) s := by
  refine ⟨_, rfl, rfl, by decide +kernel, fun independent => ?_⟩
  have idle := independent.sequential fun
    | 0 | 1 => rfl
    | _ + 2 => rfl
  obtain ⟨order, perm, bits⟩ := idle 0 (by decide)
  obtain rfl := List.perm_singleton.mp perm
  exact Bool.false_ne_true (congrFun bits .output)

end Phabos.Tca64xx
