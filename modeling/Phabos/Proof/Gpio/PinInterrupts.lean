import Phabos.Proof.Gpio.PinIndependence

namespace Phabos.Tca64xx.Interrupts
open Library Function List
open Option (bind_eq_some_iff bind_some getD_some ite_some_none_eq_some map_eq_some_iff map_some)

/-- What makes the interrupt of a pin -/
inductive Kind where
  | bothEdges
  | risingEdge
  | fallingEdge
  | highLevel
  | lowLevel
  | never
  deriving DecidableEq, Repr

def Kind.edge : Kind → Bool → Bool → Bool
  | .bothEdges, old, new => old != new
  | .risingEdge, old, new => !old && new
  | .fallingEdge, old, new => old && !new
  | _, _, _ => false

def Kind.active : Kind → Bool → Bool
  | .highLevel, level => level
  | .lowLevel, level => !level
  | _, _ => false

/-- The kind that a call of `tca64xx_set_gpio_triggering` asks for -/
def IrqType.kind : IrqType → Option Kind
  | .none | .edgeBoth => some .bothEdges
  | .edgeRising => some .risingEdge
  | .edgeFalling => some .fallingEdge
  | .levelHigh => some .highLevel
  | .levelLow => some .lowLevel
  | .other => Option.none

def Kind.make (type level : BitVec 32) : Kind :=
  if type = TCA64XX_IRQ_TYPE_EDGE then
    if level = TCA64XX_IRQ_TYPE_EDGE_BOTH then .bothEdges
    else if level = TCA64XX_IRQ_TYPE_EDGE_FALLING then .fallingEdge
    else if level = TCA64XX_IRQ_TYPE_EDGE_RISING then .risingEdge
    else .never
  else if level = TCA64XX_IRQ_TYPE_LEVEL_HIGH then .highLevel
  else if level = TCA64XX_IRQ_TYPE_LEVEL_LOW then .lowLevel
  else .never

/-- The kind that the driver has for a pin -/
def Kind.of (trigger level : BitVec 32) (pin : ℕ) : Kind :=
  .make (getGpioTriggeringType trigger pin) (getGpioTriggeringLevel level pin)

/-- The levels of eight pins in a word -/
def port (word : BitVec 32) (reg : ℕ) : BitVec 8 := word.extractLsb' (8 * reg) 8

/-- The levels of all pins, of which each port was last read as it is here -/
def levels (part : Part) (shown : ℕ → BitVec 8) : BitVec 32 :=
  (List.range (getNrGpios part / 8)).foldl (fun word reg => word ||| (shown reg).setWidth 32 <<< (8 * reg)) 0

/-- The interrupts before and after a step, and those that the step has to add -/
structure Moment where
  before : BitVec 32
  after : BitVec 32
  expected : ℕ → Bool

/-- An interrupt becomes set exactly when the step has to add it. -/
def Moment.Exact (part : Part) (moment : Moment) : Prop := ∀ pin < getNrGpios part,
  (moment.after.getLsbD pin = true → moment.before.getLsbD pin = true ∨ moment.expected pin = true) ∧
    (moment.expected pin = true → moment.after.getLsbD pin = true)

/-- What happened so far: the last value read of each port (0 before the first one, as in `in`), the pairs of consecutive
values of each port since the last `intstat_update`, the kinds that were asked for, the pins that had an interrupt since
their handler was last called, `in` and the levels at the end of each operation, and the interrupts in each step -/
structure History where
  shown : ℕ → BitVec 8
  changes : ℕ → List (BitVec 8 × BitVec 8)
  configured : ℕ → Kind
  owed : ℕ → Bool
  samples : List (BitVec 32 × BitVec 32)
  moments : List Moment

/-- Whether a pin made an edge of its kind, or has its active level -/
def History.expected (h : History) (pin : ℕ) : Bool :=
  ((h.changes (pin / 8)).any fun change =>
    (h.configured pin).edge (change.1.getLsbD (pin % 8)) (change.2.getLsbD (pin % 8))) ||
    (h.configured pin).active ((h.shown (pin / 8)).getLsbD (pin % 8))

/-- The interrupts that a step has to add -/
def History.due (h : History) : Event → ℕ → Bool
  | .store _ => h.expected
  | _ => fun _ => false

def History.read (h : History) (reg : ℕ) (val : BitVec 8) : History :=
  { h with
    shown := Function.update h.shown reg val
    changes := Function.update h.changes reg (h.changes reg ++ [(h.shown reg, val)]) }

/-- What a step adds to the history, besides its moment -/
def History.add (part : Part) (s s' : Chip) (h : History) : Event → History
  | .read caller (some val) => (((s.readings caller).bind (·.reg part)).map fun reg => h.read reg val).getD h
  | .read _ none => { h with samples := h.samples ++ [(s'.input, levels part h.shown)] }
  | .store _ => { h with
      changes := fun _ => []
      owed := fun pin => h.owed pin || h.expected pin
      samples := h.samples ++ [(s'.input, levels part h.shown)] }
  | .call =>
    match s.handler with
    | .dispatching (pin :: _) =>
      if (s.irqVector pin).isSome then { h with owed := Function.update h.owed pin false } else h
    | _ => h
  | .clearInterrupt which => { h with owed := Function.update h.owed which false }
  | .setLevel caller => ((s.settings.find? (·.caller = caller)).bind fun setting => setting.type.kind.map fun kind =>
    { h with configured := Function.update h.configured setting.which kind }).getD h
  | _ => h

structure System where
  chip : Chip
  history : History

def System.step (part : Part) (s : System) (event : Event) : Option System :=
  (Interrupts.step part s.chip event).map fun chip =>
    let moment : Moment := ⟨s.chip.intstat, chip.intstat, s.history.due event⟩
    ⟨chip, { s.history.add part s.chip chip event with moments := s.history.moments ++ [moment] }⟩

def System.start (part : Part) (memory : Memory) : System where
  chip := Chip.probed part memory
  history := ⟨fun _ => 0, fun _ => [], Kind.of memory.trigger memory.level, fun _ => false, [], []⟩

/-- The pins whose handlers are still to be called -/
def Handler.pins : Handler → List ℕ
  | .idle | .updating => []
  | .dispatching pins | .clearing _ pins => pins

/-- The pin whose handler was called -/
def Handler.pin : Handler → Option ℕ
  | .clearing pin _ => some pin
  | _ => none

/-- A work is going to look at the interrupts. -/
def Chip.Runs (s : Chip) : Prop := s.handler = .updating ∨ s.thread = true ∧ 0 < s.queued

instance (s : Chip) : Decidable s.Runs := inferInstanceAs (Decidable (_ ∨ _))

/-- The steps of the work -/
def Event.own : Event → Prop
  | .begin | .read none _ | .store none | .snapshot | .call | .clear | .finish => True
  | _ => False

/-- Interrupts are neither lost nor invented. -/
structure Delivered (part : Part) (s : System) : Prop where
  samples : ∀ sample ∈ s.history.samples, sample.1 = sample.2
  moments : ∀ moment ∈ s.history.moments, moment.Exact part
  kinds : ∀ pin < getNrGpios part, (∀ setting ∈ s.chip.settings, setting.which ≠ pin) →
    Kind.of s.chip.trigger s.chip.level pin = s.history.configured pin
  kept : ∀ pin < getNrGpios part, s.history.owed pin = true → s.chip.intstat.getLsbD pin = true
  handled : ¬s.chip.Runs → s.chip.handler = .idle →
    ∀ pin < getNrGpios part, s.chip.intstat.getLsbD pin = true → s.chip.mask.getLsbD pin = true
  goes : s.chip.Runs ∨ s.chip.handler ≠ .idle → ∃ event : Event, event.own ∧ (step part s.chip event).isSome

section Bits
variable {pin : ℕ}

theorem one_shift_bit (small : pin < 32) (which : ℕ) : (1#32 <<< which).getLsbD pin = decide (pin = which) := by
  rw [← BitVec.twoPow_eq, BitVec.getLsbD_twoPow]
  by_cases same : which = pin
  · simp [same, small]
  · simp [same, Ne.symm same]

theorem set_bit (small : pin < 32) (bits : BitVec 32) (which : ℕ) :
    (bits ||| 1#32 <<< which).getLsbD pin = (bits.getLsbD pin || decide (pin = which)) := by
  rw [BitVec.getLsbD_or, one_shift_bit small]

theorem clear_bit (small : pin < 32) (bits : BitVec 32) (which : ℕ) :
    (bits &&& ~~~ (1#32 <<< which)).getLsbD pin = (bits.getLsbD pin && !decide (pin = which)) := by
  rw [BitVec.getLsbD_and, BitVec.getLsbD_not, one_shift_bit small, decide_eq_true small, Bool.true_and]

theorem type_cases (trigger : BitVec 32) (pin : ℕ) : getGpioTriggeringType trigger pin = TCA64XX_IRQ_TYPE_EDGE ∨
    getGpioTriggeringType trigger pin = TCA64XX_IRQ_TYPE_LEVEL := by
  unfold getGpioTriggeringType
  rw [BitVec.and_one_eq_setWidth_ofBool_getLsbD]
  cases (trigger >>> pin).getLsbD 0 with
  | false => exact Or.inl rfl
  | true => exact Or.inr rfl

theorem level_cases (level : BitVec 32) (pin : ℕ) : getGpioTriggeringLevel level pin = 0#32 ∨
    getGpioTriggeringLevel level pin = 1#32 ∨ getGpioTriggeringLevel level pin = 2#32 ∨
      getGpioTriggeringLevel level pin = 3#32 := by
  have small : (getGpioTriggeringLevel level pin).toNat < 4 := by
    unfold getGpioTriggeringLevel
    rw [BitVec.toNat_and]
    exact Nat.lt_of_le_of_lt Nat.and_le_right (by decide)
  generalize getGpioTriggeringLevel level pin = code at small
  have value : code.toNat = 0 ∨ code.toNat = 1 ∨ code.toNat = 2 ∨ code.toNat = 3 := by omega
  refine value.imp ?_ (Or.imp ?_ (Or.imp ?_ ?_)) <;> exact fun same => BitVec.eq_of_toNat_eq same

theorem Kind.edge_self (kind : Kind) (bit : Bool) : kind.edge bit bit = false := by
  cases kind <;> cases bit <;> rfl

theorem raises_eq (trigger level : BitVec 32) (pin : ℕ) (old new : Bool) :
    raises trigger level pin (old ^^ new) new =
      ((Kind.of trigger level pin).edge old new || (Kind.of trigger level pin).active new) := by
  unfold raises Kind.of
  obtain edge | active := type_cases trigger pin
  · rw [edge]
    rcases level_cases level pin with code | code | code | code <;> rw [code] <;> cases old <;> cases new <;> rfl
  · rw [active]
    rcases level_cases level pin with code | code | code | code <;> rw [code] <;> cases old <;> cases new <;> rfl

theorem intstatLoop_bit (small : pin < 32) (trigger level : BitVec 32) {left first : ℕ} (few : first + left ≤ 32)
    (diff input intstat : BitVec 32) :
    (intstatLoop trigger level left first diff input intstat).getLsbD pin = (intstat.getLsbD pin ||
      decide (first ≤ pin ∧ pin < first + left) &&
        raises trigger level pin (diff.getLsbD (pin - first)) (input.getLsbD (pin - first))) := by
  induction left generalizing first diff input intstat with
  | zero =>
    have outside : ¬(first ≤ pin ∧ pin < first + 0) := by omega
    rw [intstatLoop, decide_eq_false outside, Bool.false_and, Bool.or_false]
  | succ left ih =>
    rw [intstatLoop, ih (by omega), BitVec.getLsbD_ushiftRight, BitVec.getLsbD_ushiftRight]
    have turn : (if raises trigger level first (diff.getLsbD 0) (input.getLsbD 0) then intstat ||| 1#32 <<< first
        else intstat).getLsbD pin = (intstat.getLsbD pin ||
          decide (pin = first) && raises trigger level first (diff.getLsbD 0) (input.getLsbD 0)) := by
      cases raises trigger level first (diff.getLsbD 0) (input.getLsbD 0) with
      | true => rw [if_pos rfl, set_bit small, Bool.and_true]
      | false => rw [if_neg Bool.false_ne_true, Bool.and_false, Bool.or_false]
    rw [turn]
    by_cases here : pin = first
    · subst here
      simp
    · by_cases after : first < pin
      · have shifted : 1 + (pin - (first + 1)) = pin - first := by omega
        have bounds : (first + 1 ≤ pin ∧ pin < first + 1 + left) ↔ (first ≤ pin ∧ pin < first + (left + 1)) := by omega
        rw [shifted, decide_eq_false here, Bool.false_and, Bool.or_false, decide_eq_decide.mpr bounds]
      · have outside : ¬(first + 1 ≤ pin ∧ pin < first + 1 + left) := by omega
        have outside' : ¬(first ≤ pin ∧ pin < first + (left + 1)) := by omega
        rw [decide_eq_false here, decide_eq_false outside, decide_eq_false outside', Bool.false_and, Bool.or_false,
          Bool.false_and, Bool.or_false, Bool.false_and]
        simp

theorem levels_bit (part : Part) (shown : ℕ → BitVec 8) (within : pin < getNrGpios part) :
    (levels part shown).getLsbD pin = (shown (pin / 8)).getLsbD (pin % 8) := by
  have few : getNrGpios part ≤ 24 := by cases part <;> decide
  have partly (count : ℕ) (small : count ≤ 3) : ((range count).foldl
      (fun word reg => word ||| (shown reg).setWidth 32 <<< (8 * reg)) 0#32).getLsbD pin =
        (decide (pin < 8 * count) && (shown (pin / 8)).getLsbD (pin % 8)) := by
    induction count with
    | zero => simp
    | succ count ih =>
      rw [range_succ, foldl_append, foldl_cons, foldl_nil, BitVec.getLsbD_or, ih (by omega),
        BitVec.getLsbD_shiftLeft, BitVec.getLsbD_setWidth]
      obtain below | inside | above : pin < 8 * count ∨ pin / 8 = count ∨ 8 * (count + 1) ≤ pin := by omega
      · have later : pin < 8 * (count + 1) := by omega
        simp [below, later]
      · have bounds : ¬pin < 8 * count ∧ pin < 8 * (count + 1) ∧ pin < 32 ∧ pin - 8 * count = pin % 8 := by omega
        have least : pin % 8 < 32 := by omega
        simp [bounds, inside, least]
      · have bounds : ¬pin < 8 * count ∧ ¬pin < 8 * (count + 1) ∧ 8 ≤ pin - 8 * count := by omega
        simp [bounds]
  have whole : pin < 8 * (getNrGpios part / 8) := by cases part <;> exact within
  exact (partly _ (by omega)).trans (by rw [decide_eq_true whole, Bool.true_and])

theorem port_bit (word : BitVec 32) (pin : ℕ) : (port word (pin / 8)).getLsbD (pin % 8) = word.getLsbD pin := by
  unfold port
  rw [BitVec.getLsbD_extractLsb', decide_eq_true (Nat.mod_lt pin (by decide)), Bool.true_and, Nat.div_add_mod]

end Bits

variable {trigger level : BitVec 32}

section Settings
variable {which pin : ℕ}

theorem type_eq (trigger : BitVec 32) (pin : ℕ) :
    getGpioTriggeringType trigger pin = (BitVec.ofBool (trigger.getLsbD pin)).setWidth 32 := by
  unfold getGpioTriggeringType
  rw [BitVec.and_one_eq_setWidth_ofBool_getLsbD, BitVec.getLsbD_ushiftRight, Nat.add_zero]

theorem type_setGpioTrigger (small : pin < 32) (bits : BitVec 32) {trigger : BitVec 32}
    (valid : trigger = TCA64XX_IRQ_TYPE_EDGE ∨ trigger = TCA64XX_IRQ_TYPE_LEVEL) :
    getGpioTriggeringType (setGpioTrigger bits which trigger) pin =
      if pin = which then trigger else getGpioTriggeringType bits pin := by
  rw [type_eq, type_eq]
  unfold setGpioTrigger
  obtain rfl | rfl := valid
  · rw [if_neg (by decide)]
    change ((BitVec.ofBool ((bits &&& ~~~ (1#32 <<< which)).getLsbD pin)).setWidth 32) = _
    rw [clear_bit small]
    by_cases same : pin = which
    · rw [if_pos same, decide_eq_true same, Bool.not_true, Bool.and_false]
      rfl
    · rw [if_neg same, decide_eq_false same, Bool.not_false, Bool.and_true]
  · rw [if_pos (by decide)]
    change ((BitVec.ofBool ((bits ||| 1#32 <<< which).getLsbD pin)).setWidth 32) = _
    rw [set_bit small]
    by_cases same : pin = which
    · rw [if_pos same, decide_eq_true same, Bool.or_true]
      rfl
    · rw [if_neg same, decide_eq_false same, Bool.or_false]

theorem three_bit (index : ℕ) : (3#32).getLsbD index = decide (index < 2) := by
  change (BitVec.ofNat 32 (2 ^ 2 - 1)).getLsbD index = _
  rw [BitVec.getLsbD_ofNat, Nat.testBit_two_pow_sub_one]
  by_cases low : index < 2
  · have small : index < 32 := by omega
    rw [decide_eq_true low, decide_eq_true small, Bool.true_and]
  · rw [decide_eq_false low, Bool.and_false]

theorem level_bit (level : BitVec 32) (pin index : ℕ) :
    (getGpioTriggeringLevel level pin).getLsbD index = (level.getLsbD (2 * pin + index) && decide (index < 2)) := by
  unfold getGpioTriggeringLevel
  rw [BitVec.getLsbD_and, BitVec.getLsbD_ushiftRight, three_bit, Nat.shiftLeft_eq, Nat.mul_comm, Nat.pow_one]

theorem level_setGpioLevel (bits : BitVec 32) {level : BitVec 32} (valid : level.toNat < 4) :
    getGpioTriggeringLevel (setGpioLevel bits which level) pin =
      if pin = which then if which < 16 then level else 0 else getGpioTriggeringLevel bits pin := by
  apply BitVec.eq_of_getLsbD_eq
  intro index small
  have bit : (setGpioLevel bits which level).getLsbD (2 * pin + index) =
      (bits.getLsbD (2 * pin + index) && (decide (2 * pin + index < 32) &&
        !(decide (2 * pin + index < 32) && !decide (2 * pin + index < 2 * which) &&
          decide (2 * pin + index - 2 * which < 2))) ||
        decide (2 * pin + index < 32) && !decide (2 * pin + index < 2 * which) &&
          level.getLsbD (2 * pin + index - 2 * which)) := by
    unfold setGpioLevel
    rw [BitVec.getLsbD_or, BitVec.getLsbD_and, BitVec.getLsbD_not, BitVec.getLsbD_shiftLeft, BitVec.getLsbD_shiftLeft,
      three_bit, Nat.shiftLeft_eq, Nat.pow_one, Nat.mul_comm which 2]
  have above (position : ℕ) (high : 2 ≤ position) : level.getLsbD position = false := by
    have bound : 2 ^ 2 ≤ 2 ^ position := Nat.pow_le_pow_right (by decide) high
    exact Nat.testBit_lt_two_pow (Nat.lt_of_lt_of_le valid bound)
  rw [level_bit, bit]
  by_cases low : index < 2
  · rw [decide_eq_true low, Bool.and_true]
    obtain before | rfl | after := lt_trichotomy pin which
    · have range : 2 * pin + index < 2 * which := by omega
      rw [if_neg (Nat.ne_of_lt before), level_bit, decide_eq_true low, decide_eq_true range]
      by_cases inside : 2 * pin + index < 32
      · simp [inside]
      · simp [BitVec.getLsbD_of_ge bits _ (Nat.not_lt.mp inside), inside]
    · have range : ¬2 * pin + index < 2 * pin ∧ 2 * pin + index - 2 * pin = index := by omega
      rw [if_pos rfl, decide_eq_false range.1, range.2, decide_eq_true low]
      by_cases inside : pin < 16
      · have word : 2 * pin + index < 32 := by omega
        simp [inside, word]
      · have word : ¬2 * pin + index < 32 := by omega
        simp [inside, word]
    · have range : ¬2 * pin + index - 2 * which < 2 := by omega
      rw [if_neg (Nat.ne_of_gt after), level_bit, decide_eq_true low, decide_eq_false range,
        above _ (Nat.not_lt.mp range)]
      by_cases inside : 2 * pin + index < 32
      · simp [inside]
      · simp [BitVec.getLsbD_of_ge bits _ (Nat.not_lt.mp inside), inside]
  · rw [decide_eq_false low, Bool.and_false]
    split_ifs
    · exact (above index (Nat.not_lt.mp low)).symm
    · exact BitVec.getLsbD_zero.symm
    · rw [level_bit, decide_eq_false low, Bool.and_false]

theorem Kind.make_both {type level : BitVec 32} (both : Kind.make type level = .bothEdges) :
    Kind.make type 0 = .bothEdges := by
  unfold Kind.make at both ⊢
  split_ifs at both with edge
  exact (if_pos edge).trans rfl

theorem setting_kind {type : IrqType} (setting : type.setting = some (trigger, level)) :
    type.kind = some (Kind.make trigger level) ∧
      (trigger = TCA64XX_IRQ_TYPE_EDGE ∨ trigger = TCA64XX_IRQ_TYPE_LEVEL) ∧ level.toNat < 4 := by
  cases type <;> cases setting <;> decide

end Settings

/-- What a call has read is what was last read of the ports. -/
def Reading.Latest (part : Part) (shown : ℕ → BitVec 8) : Reading → Prop
  | .update _ input => input = levels part shown
  | .get _ => True
  | .got which val => val = shown (which / 8)

instance (part : Part) (shown : ℕ → BitVec 8) : ∀ reading : Reading, Decidable (reading.Latest part shown)
  | .update _ input => inferInstanceAs (Decidable (input = levels part shown))
  | .get _ => inferInstanceAs (Decidable True)
  | .got which val => inferInstanceAs (Decidable (val = shown (which / 8)))

/-- When `intstat_update` finds no change, the pins at their active levels have their interrupts already. -/
def Chip.LevelsSeen (part : Part) (s : Chip) (input : BitVec 32) : Prop :=
  input = s.input → ∀ pin < getNrGpios part, (Kind.of s.trigger s.level pin).active (input.getLsbD pin) = true →
    s.intstat.getLsbD pin = true

instance (part : Part) (s : Chip) (input : BitVec 32) : Decidable (s.LevelsSeen part input) :=
  inferInstanceAs (Decidable (_ → _))

/-- The pins that are being set up have the kinds that they had before. -/
def System.KindsStand (s : System) : Prop := ∀ setting ∈ s.chip.settings,
  Kind.of s.chip.trigger s.chip.level setting.which = s.history.configured setting.which

instance (s : System) : Decidable s.KindsStand := inferInstanceAs (Decidable (∀ setting ∈ s.chip.settings, _))

/-- The handler of a pin with a new interrupt was not called just before, and it is going to be called if the pin is not
masked. -/
def System.Attended (part : Part) (s : System) : Prop := ∀ pin < getNrGpios part, s.history.expected pin = true →
  s.chip.handler.pin ≠ some pin ∧
    (s.chip.mask.getLsbD pin = true ∨ s.chip.Runs ∨ pin ∈ s.chip.handler.pins)

instance (part : Part) (s : System) : Decidable (s.Attended part) :=
  inferInstanceAs (Decidable (∀ pin < getNrGpios part, _))

/-- `tca64xx_get` is called on the part with eight pins only. A port that shows another value than the last time was
stored since then, and a call that fails has read nothing new. A call stores what was last read of the ports, with the
conditions above. The handlers of pins with interrupts are attached. A pin is unmasked without an interrupt or while its
handler is going to be called. Pins are set up one call at a time, those from 16 on for both edges. -/
def Timely (part : Part) (s : System) : Event → Prop
  | .get _ which => part = .tca6408 ∧ which < getNrGpios part
  | .read caller (some val) => ∀ reg ∈ (s.chip.readings caller).bind (·.reg part),
      val = s.history.shown reg ∨ s.history.shown reg = port s.chip.input reg
  | .read _ none => s.chip.input = levels part s.history.shown
  | .store caller => (∀ reading ∈ s.chip.readings caller, reading.Latest part s.history.shown) ∧
      s.chip.LevelsSeen part (levels part s.history.shown) ∧ s.KindsStand ∧ s.Attended part
  | .call => ∀ pin ∈ s.chip.handler.pins.head?, (s.chip.irqVector pin).isSome
  | .unmask which => s.chip.intstat.getLsbD which = true → s.chip.Runs ∨ which ∈ s.chip.handler.pins
  | .setTrigger _ which type => which < getNrGpios part ∧ (16 ≤ which → ∀ kind ∈ type.kind, kind = .bothEdges) ∧
      ∀ setting ∈ s.chip.settings, setting.which ≠ which
  | _ => True

instance (part : Part) (s : System) : ∀ event, Decidable (Timely part s event)
  | .get _ _ => inferInstanceAs (Decidable (_ ∧ _))
  | .read caller (some val) => inferInstanceAs (Decidable (∀ reg ∈ (s.chip.readings caller).bind (·.reg part),
      val = s.history.shown reg ∨ s.history.shown reg = port s.chip.input reg))
  | .read _ none => inferInstanceAs (Decidable (_ = _))
  | .store caller => inferInstanceAs (Decidable ((∀ reading ∈ s.chip.readings caller, _) ∧ _ ∧ _ ∧ _))
  | .call => inferInstanceAs (Decidable (∀ pin ∈ s.chip.handler.pins.head?, _))
  | .unmask _ => inferInstanceAs (Decidable (_ → _))
  | .setTrigger _ _ type => inferInstanceAs (Decidable (_ ∧ (_ → ∀ kind ∈ type.kind, kind = .bothEdges) ∧ _))
  | .interrupt | .begin | .update _ | .snapshot | .clear | .finish | .mask _ | .clearInterrupt _ | .attach _ _ _
  | .setLevel _ => inferInstanceAs (Decidable True)

/-- The pins that the handler has not cleared yet -/
def Handler.todo : Handler → List ℕ
  | .idle | .updating => []
  | .dispatching pins => pins
  | .clearing pin pins => pin :: pins

/-- Calls of `tca64xx_get` are on the part with eight pins. -/
def Reading.Fits (part : Part) : Reading → Prop
  | .update _ _ => True
  | .get which | .got which _ => part = .tca6408 ∧ which < getNrGpios part

/-- Each port went from what is stored to what was last read of it at once. -/
def Ports (part : Part) (input : BitVec 32) (shown : ℕ → BitVec 8) (changes : ℕ → List (BitVec 8 × BitVec 8)) : Prop :=
  ∀ reg < getNrGpios part / 8,
    (∀ change ∈ changes reg, change.1 = change.2 ∨ change = (port input reg, shown reg)) ∧
      (port input reg = shown reg ∨ (port input reg, shown reg) ∈ changes reg)

/-- The driver has the kinds that were asked for; a pin that is being set up has its type. -/
structure Kinds (part : Part) (trigger level : BitVec 32) (settings : List Setting) (configured : ℕ → Kind) : Prop where
  idle : ∀ pin < getNrGpios part, (∀ setting ∈ settings, setting.which ≠ pin) →
    Kind.of trigger level pin = configured pin
  halfway : ∀ setting ∈ settings, setting.which < getNrGpios part ∧
    (16 ≤ setting.which → ∀ kind ∈ setting.type.kind, kind = .bothEdges) ∧
      ∃ codes, setting.type.setting = some codes ∧ getGpioTriggeringType trigger setting.which = codes.1

/-- The interrupts of the pins that the handler has to look at are kept, and no others are left. -/
structure Marks (part : Part) (s : Chip) (owed : ℕ → Bool) : Prop where
  kept : ∀ pin < getNrGpios part, owed pin = true → s.intstat.getLsbD pin = true
  todo : ¬s.Runs → ∀ pin < getNrGpios part, s.intstat.getLsbD pin = true →
    s.mask.getLsbD pin = true ∨ pin ∈ s.handler.todo
  called : ∀ pin < getNrGpios part, s.handler.pin = some pin → owed pin = false

/-- What holds between the steps of a run -/
structure Sound (part : Part) (s : System) : Prop where
  samples : ∀ sample ∈ s.history.samples, sample.1 = sample.2
  ports : Ports part s.chip.input s.history.shown s.history.changes
  readings : ∀ caller, ∀ reading ∈ s.chip.readings caller, reading.Fits part
  own : ∀ reading ∈ s.chip.readings none, s.chip.handler = .updating ∧ ∃ i input, reading = .update i input
  kinds : Kinds part s.chip.trigger s.chip.level s.chip.settings s.history.configured
  marks : Marks part s.chip s.history.owed

section Store
variable {part : Part} {s : System} {pin : ℕ}

theorem pin_small (within : pin < getNrGpios part) : pin < 32 ∧ pin / 8 < getNrGpios part / 8 := by
  cases part <;> simp only [getNrGpios] at within ⊢ <;> omega

theorem intstatUpdate_eq (part : Part) (s : Chip) (input : BitVec 32) : intstatUpdate part s input =
    { s with
      input
      intstat := if s.input = input then s.intstat
        else intstatLoop s.trigger s.level (getNrGpios part) 0 (s.input ^^^ input) input s.intstat } := by
  unfold intstatUpdate
  dsimp only
  by_cases same : s.input = input
  · have zero : s.input ^^^ input = 0 := BitVec.xor_eq_zero_iff.mpr same
    rw [if_pos zero, if_pos same, ← same]
  · have differs : ¬s.input ^^^ input = 0 := fun zero => same (BitVec.xor_eq_zero_iff.mp zero)
    rw [if_neg differs, if_neg same]

/-- `intstat_update` adds the interrupts of the pins that changed in the way of their kinds, and those of the pins at their
active levels; but nothing if no pin changed. -/
theorem intstatUpdate_bit (s : Chip) (input : BitVec 32) (within : pin < getNrGpios part) :
    (intstatUpdate part s input).intstat.getLsbD pin = (s.intstat.getLsbD pin || decide (s.input ≠ input) &&
      ((Kind.of s.trigger s.level pin).edge (s.input.getLsbD pin) (input.getLsbD pin) ||
        (Kind.of s.trigger s.level pin).active (input.getLsbD pin))) := by
  have few : 0 + getNrGpios part ≤ 32 := by cases part <;> decide
  rw [intstatUpdate_eq]
  by_cases same : s.input = input
  · simp [same]
  · have inside : 0 ≤ pin ∧ pin < 0 + getNrGpios part := ⟨Nat.zero_le pin, by omega⟩
    dsimp only
    rw [if_neg same, decide_eq_true same, Bool.true_and, intstatLoop_bit (pin_small within).1 s.trigger s.level few,
      decide_eq_true inside, Bool.true_and, Nat.sub_zero, BitVec.getLsbD_xor, raises_eq]

/-- The changes of a port since the last `intstat_update` are the change from what is stored to what was last read. -/
theorem Ports.expected (ports : Ports part s.chip.input s.history.shown s.history.changes)
    (within : pin < getNrGpios part) (kind : Kind.of s.chip.trigger s.chip.level pin = s.history.configured pin) :
    s.history.expected pin =
      ((Kind.of s.chip.trigger s.chip.level pin).edge (s.chip.input.getLsbD pin)
        ((levels part s.history.shown).getLsbD pin) ||
      (Kind.of s.chip.trigger s.chip.level pin).active ((levels part s.history.shown).getLsbD pin)) := by
  obtain ⟨only, there⟩ := ports (pin / 8) (pin_small within).2
  unfold History.expected
  rw [kind, levels_bit part _ within, ← port_bit s.chip.input]
  congr 1
  rw [Bool.eq_iff_iff, any_eq_true]
  constructor
  · rintro ⟨change, among, edge⟩
    obtain same | rfl := only change among
    · rw [same, Kind.edge_self] at edge
      cases edge
    · exact edge
  · intro edge
    obtain same | among := there
    · rw [same, Kind.edge_self] at edge
      cases edge
    · exact ⟨_, among, edge⟩

theorem Kinds.all (kinds : Kinds part s.chip.trigger s.chip.level s.chip.settings s.history.configured)
    (stand : s.KindsStand) (within : pin < getNrGpios part) :
    Kind.of s.chip.trigger s.chip.level pin = s.history.configured pin := by
  by_cases idle : ∀ setting ∈ s.chip.settings, setting.which ≠ pin
  · exact kinds.idle pin within idle
  · obtain ⟨setting, among, rfl⟩ : ∃ setting ∈ s.chip.settings, setting.which = pin := by simpa using idle
    exact stand setting among

theorem Sound.stored (sound : Sound part s) (stand : s.KindsStand)
    (seen : s.chip.LevelsSeen part (levels part s.history.shown)) (within : pin < getNrGpios part) :
    (intstatUpdate part s.chip (levels part s.history.shown)).intstat.getLsbD pin =
      (s.chip.intstat.getLsbD pin || s.history.expected pin) := by
  have kind := sound.kinds.all stand within
  rw [intstatUpdate_bit s.chip _ within, sound.ports.expected within kind]
  by_cases same : s.chip.input = levels part s.history.shown
  · have active := seen same.symm pin within
    rw [same, Kind.edge_self, Bool.false_or]
    cases now : (Kind.of s.chip.trigger s.chip.level pin).active ((levels part s.history.shown).getLsbD pin) with
    | false => simp
    | true => simp [active now]
  · simp [same]

theorem Reading.input_levels {reading : Reading} {input : BitVec 32} {shown : ℕ → BitVec 8} (fits : reading.Fits part)
    (latest : reading.Latest part shown) (given : reading.input part = some input) : input = levels part shown := by
  cases reading with
  | update i values =>
    obtain ⟨-, same⟩ := Option.ite_none_left_eq_some.mp given
    obtain rfl := Option.some.inj same
    exact latest
  | get which => cases given
  | got which val =>
    obtain ⟨rfl, inside⟩ := fits
    obtain rfl := Option.some.inj given
    have first : which / 8 = 0 := Nat.div_eq_of_lt inside
    obtain rfl : val = shown (which / 8) := latest
    rw [first]
    change _ = 0#32 ||| (shown 0).setWidth 32 <<< 0
    simp

end Store

theorem Handler.mem_todo {handler : Handler} {pin : ℕ} (among : pin ∈ handler.pins) : pin ∈ handler.todo := by
  cases handler with
  | idle => cases among
  | updating => cases among
  | dispatching pins => exact among
  | clearing called pins => exact mem_cons_of_mem called among

section Marks
variable {part : Part} {s : Chip} {owed : ℕ → Bool} {pin : ℕ} {pins : List ℕ}
variable (marks : Marks part s owed)
include marks

theorem Marks.interrupt : Marks part { s with queued := s.queued + 1 } owed where
  kept := marks.kept
  todo quiet := marks.todo fun runs => quiet (runs.imp id (And.imp id (Nat.lt_add_right 1)))
  called := marks.called

theorem Marks.begin (readings : Option ℕ → Option Reading) :
    Marks part { s with queued := s.queued - 1, handler := .updating, readings } owed where
  kept := marks.kept
  todo quiet := absurd (Or.inl rfl) quiet
  called := nofun

theorem Marks.snapshot :
    Marks part { s with handler := .dispatching (irqPins part s.getInterrupt) } owed where
  kept := marks.kept
  todo _ pin within set := by
    cases masked : s.mask.getLsbD pin with
    | true => exact Or.inl rfl
    | false =>
      refine Or.inr (mem_filter.mpr ⟨mem_range.mpr within, ?_⟩)
      change (s.intstat &&& ~~~ s.mask).getLsbD pin = true
      rw [BitVec.getLsbD_and, BitVec.getLsbD_not, set, masked, decide_eq_true (pin_small within).1]
      rfl
  called := nofun

theorem Marks.call (here : s.handler = .dispatching (pin :: pins)) (called : List (ℕ × ℕ)) :
    Marks part { s with handler := .clearing pin pins, called } (update owed pin false) where
  kept other within still := by
    by_cases same : other = pin
    · rw [same, update_self] at still
      cases still
    · rw [update_of_ne same] at still
      exact marks.kept other within still
  todo quiet := by
    have before := marks.todo fun runs => quiet (runs.imp (fun updating => by rw [here] at updating; cases updating) id)
    rwa [here] at before
  called other _ known := by
    obtain rfl := Option.some.inj known
    exact update_self _ _ _

theorem Marks.clear (here : s.handler = .clearing pin pins) :
    Marks part { s.clearInterrupt pin with handler := .dispatching pins } owed where
  kept other within still := by
    have differs : other ≠ pin := by
      rintro rfl
      have called := marks.called other within (by rw [here]; rfl)
      rw [still] at called
      cases called
    change (s.intstat &&& ~~~ (1#32 <<< pin)).getLsbD other = true
    rw [clear_bit (pin_small within).1, marks.kept other within still, decide_eq_false differs]
    rfl
  todo quiet other within set := by
    change (s.intstat &&& ~~~ (1#32 <<< pin)).getLsbD other = true at set
    rw [clear_bit (pin_small within).1, Bool.and_eq_true, Bool.not_eq_true', decide_eq_false_iff_not] at set
    have before := marks.todo
      (fun runs => quiet (runs.imp (fun updating => by rw [here] at updating; cases updating) id)) other within set.1
    rw [here] at before
    exact before.imp id fun among => (mem_cons.mp among).resolve_left set.2
  called := nofun

theorem Marks.finish (here : s.handler = .dispatching []) :
    Marks part { s with handler := .idle } owed where
  kept := marks.kept
  todo quiet := by
    have before := marks.todo fun runs => quiet (runs.imp (fun updating => by rw [here] at updating; cases updating) id)
    rwa [here] at before
  called := nofun

theorem Marks.mask (which : ℕ) :
    Marks part { s with mask := s.mask ||| 1#32 <<< which } owed where
  kept := marks.kept
  todo quiet pin within set := by
    refine (marks.todo quiet pin within set).imp (fun masked => ?_) id
    change (s.mask ||| 1#32 <<< which).getLsbD pin = true
    rw [set_bit (pin_small within).1, masked, Bool.true_or]
  called := marks.called

theorem Marks.unmask {which : ℕ} (timely : s.intstat.getLsbD which = true → s.Runs ∨ which ∈ s.handler.pins) :
    Marks part { s with mask := s.mask &&& ~~~ (1#32 <<< which) } owed where
  kept := marks.kept
  todo quiet pin within set := by
    by_cases same : pin = which
    · subst same
      exact Or.inr (Handler.mem_todo ((timely set).resolve_left quiet))
    · refine (marks.todo quiet pin within set).imp (fun masked => ?_) id
      change (s.mask &&& ~~~ (1#32 <<< which)).getLsbD pin = true
      rw [clear_bit (pin_small within).1, masked, decide_eq_false same]
      rfl
  called := marks.called

theorem Marks.clearInterrupt (which : ℕ) :
    Marks part (s.clearInterrupt which) (update owed which false) where
  kept pin within still := by
    by_cases same : pin = which
    · rw [same, update_self] at still
      cases still
    · rw [update_of_ne same] at still
      change (s.intstat &&& ~~~ (1#32 <<< which)).getLsbD pin = true
      rw [clear_bit (pin_small within).1, marks.kept pin within still, decide_eq_false same]
      rfl
  todo quiet pin within set := by
    change (s.intstat &&& ~~~ (1#32 <<< which)).getLsbD pin = true at set
    rw [clear_bit (pin_small within).1, Bool.and_eq_true] at set
    exact marks.todo quiet pin within set.1
  called pin within known := by
    by_cases same : pin = which
    · rw [same, update_self]
    · rw [update_of_ne same]
      exact marks.called pin within known

end Marks

section Step
variable {part : Part} {s s' : System} {event : Event}

theorem Ports.read {input : BitVec 32} {shown : ℕ → BitVec 8} {changes : ℕ → List (BitVec 8 × BitVec 8)}
    (ports : Ports part input shown changes) {reg : ℕ} {val : BitVec 8}
    (timely : val = shown reg ∨ shown reg = port input reg) :
    Ports part input (update shown reg val)
      (update changes reg (changes reg ++ [(shown reg, val)])) := by
  intro other within
  obtain ⟨only, there⟩ := ports other within
  by_cases same : other = reg
  · subst same
    rw [update_self, update_self]
    obtain rfl | stored := timely
    · refine ⟨fun change among => ?_, there.imp id (mem_append_left _)⟩
      cases mem_append.mp among with
      | inl before => exact only change before
      | inr new =>
        obtain rfl := mem_singleton.mp new
        exact Or.inl rfl
    · refine ⟨fun change among => ?_, ?_⟩
      · cases mem_append.mp among with
        | inl before =>
          obtain still | rfl := only change before
          · exact Or.inl still
          · exact Or.inl stored.symm
        | inr new =>
          obtain rfl := mem_singleton.mp new
          exact Or.inr (by rw [stored])
      · rw [stored]
        exact Or.inr (mem_append_right _ (mem_singleton_self _))
  · rw [update_of_ne same, update_of_ne same]
    exact ⟨only, there⟩

theorem Ports.store (part : Part) (shown : ℕ → BitVec 8) : Ports part (levels part shown) shown fun _ => [] := by
  refine fun reg within => ⟨nofun, Or.inl (BitVec.eq_of_getLsbD_eq fun bit small => ?_)⟩
  have index : (8 * reg + bit) / 8 = reg ∧ (8 * reg + bit) % 8 = bit := by omega
  have inside : 8 * reg + bit < getNrGpios part := by omega
  have stored := levels_bit part shown inside
  rw [← port_bit, index.1, index.2] at stored
  exact stored

theorem Kinds.setTrigger {settings : List Setting} {configured : ℕ → Kind}
    (kinds : Kinds part trigger level settings configured) (caller : ℕ) {which : ℕ} {type : IrqType}
    {codes : BitVec 32 × BitVec 32} (setting : type.setting = some codes) (within : which < getNrGpios part)
    (high : 16 ≤ which → ∀ kind ∈ type.kind, kind = .bothEdges) (apart : ∀ setting ∈ settings, setting.which ≠ which) :
    Kinds part (setGpioTrigger trigger which codes.1) level (⟨caller, which, type⟩ :: settings) configured where
  idle pin inside others := by
    have differs : pin ≠ which := Ne.symm (others _ mem_cons_self)
    unfold Kind.of
    rw [type_setGpioTrigger (pin_small inside).1 trigger (setting_kind setting).2.1, if_neg differs]
    exact kinds.idle pin inside fun other among => others other (mem_cons_of_mem _ among)
  halfway other among := by
    cases mem_cons.mp among with
    | inl new =>
      subst new
      refine ⟨within, high, codes, setting, ?_⟩
      rw [type_setGpioTrigger (pin_small within).1 trigger (setting_kind setting).2.1, if_pos rfl]
    | inr before =>
      obtain ⟨inside, rest, own, given, same⟩ := kinds.halfway other before
      refine ⟨inside, rest, own, given, ?_⟩
      rw [type_setGpioTrigger (pin_small inside).1 trigger (setting_kind setting).2.1, if_neg (apart other before)]
      exact same

theorem Kinds.setLevel {settings : List Setting} {configured : ℕ → Kind}
    (kinds : Kinds part trigger level settings configured) {own : Setting} (among : own ∈ settings)
    {codes : BitVec 32 × BitVec 32} (setting : own.type.setting = some codes) :
    Kinds part trigger (setGpioLevel level own.which codes.2) (settings.erase own)
      (update configured own.which (Kind.make codes.1 codes.2)) where
  idle pin inside others := by
    unfold Kind.of
    rw [level_setGpioLevel level (setting_kind setting).2.2]
    by_cases same : pin = own.which
    · subst same
      obtain ⟨-, high, given, found, type⟩ := kinds.halfway own among
      obtain rfl := Option.some.inj (found.symm.trans setting)
      rw [if_pos rfl, type, update_self]
      by_cases low : own.which < 16
      · rw [if_pos low]
      · have both := high (Nat.not_lt.mp low) _ (setting_kind setting).1
        rw [if_neg low, both, Kind.make_both both]
    · rw [if_neg same, update_of_ne same]
      refine kinds.idle pin inside fun other known => ?_
      by_cases self : other = own
      · rw [self]
        exact Ne.symm same
      · exact others other ((mem_erase_of_ne self).mpr known)
  halfway other known := kinds.halfway other (mem_of_mem_erase known)

theorem Sound.moments {chip : Chip} {history : History} (sound : Sound part ⟨chip, history⟩) (moments : List Moment) :
    Sound part ⟨chip, { history with moments }⟩ :=
  { sound with }

theorem call_cases {s chip : Chip} (called : s.call = some chip) : ∃ pin pins, s.handler = .dispatching (pin :: pins) ∧
    ∃ called, chip = { s with handler := .clearing pin pins, called } := by
  unfold Chip.call at called
  split at called
  · rename_i pin pins here
    exact ⟨pin, pins, here, _, (Option.some.inj called).symm⟩
  · cases called

theorem clear_cases {s chip : Chip} (cleared : s.clear = some chip) : ∃ pin pins, s.handler = .clearing pin pins ∧
    chip = { s.clearInterrupt pin with handler := .dispatching pins } := by
  unfold Chip.clear at cleared
  split at cleared
  · rename_i pin pins here
    exact ⟨pin, pins, here, (Option.some.inj cleared).symm⟩
  · cases cleared

theorem Sound.readings_start (sound : Sound part s) (starting : Option ℕ) {first : Reading} (fits : first.Fits part) :
    ∀ caller, ∀ reading ∈ update s.chip.readings starting (some first) caller, reading.Fits part := by
  intro caller reading known
  by_cases same : caller = starting
  · rw [same, update_self] at known
    obtain rfl := Option.some.inj known
    exact fits
  · rw [update_of_ne same] at known
    exact sound.readings caller reading known

theorem Sound.readings_ended (sound : Sound part s) (ending : Option ℕ) :
    ∀ caller, ∀ reading ∈ update s.chip.readings ending none caller, reading.Fits part := by
  intro caller reading known
  by_cases same : caller = ending
  · rw [same, update_self] at known
    cases known
  · rw [update_of_ne same] at known
    exact sound.readings caller reading known

theorem Sound.own_ended (sound : Sound part s) (ending : Option ℕ) :
    ∀ reading ∈ update s.chip.readings ending none none,
      s.chip.handler = .updating ∧ ∃ i input, reading = .update i input := by
  intro reading known
  by_cases same : none = ending
  · rw [← same, update_self] at known
    cases known
  · rw [update_of_ne same] at known
    exact sound.own reading known

theorem Sound.own_read (sound : Sound part s) {caller : Option ℕ} {reading : Reading}
    (here : s.chip.readings caller = some reading) (val : BitVec 8) :
    ∀ next ∈ update s.chip.readings caller (some (reading.read val)) none,
      s.chip.handler = .updating ∧ ∃ i input, next = .update i input := by
  intro next known
  by_cases same : none = caller
  · subst same
    rw [update_self] at known
    obtain rfl := Option.some.inj known
    obtain ⟨updating, i, input, rfl⟩ := sound.own reading here
    exact ⟨updating, _, _, rfl⟩
  · rw [update_of_ne same] at known
    exact sound.own next known

theorem Reading.Fits.read {reading : Reading} (fits : reading.Fits part) (val : BitVec 8) :
    (reading.read val).Fits part := by
  cases reading with
  | update => trivial
  | get => exact fits
  | got => exact fits

/-- A timely event keeps the status of the pins. -/
theorem Sound.step (sound : Sound part s) (timely : Timely part s event) (ran : s.step part event = some s') :
    Sound part s' := by
  obtain ⟨chip, stepped, rfl⟩ := map_eq_some_iff.mp ran
  refine Sound.moments ?_ _
  cases event with
  | interrupt =>
    obtain rfl := Option.some.inj stepped
    exact { sound with marks := sound.marks.interrupt }
  | begin =>
    obtain ⟨enabled, started⟩ := Option.ite_none_right_eq_some.mp stepped
    obtain ⟨free, rfl⟩ := ite_some_none_eq_some.mp started
    exact { sound with
      readings := sound.readings_start none trivial
      own := fun reading known => by
        change update s.chip.readings none (some (.update 0 0)) none = some reading at known
        rw [update_self] at known
        obtain rfl := Option.some.inj known
        exact ⟨rfl, 0, 0, rfl⟩
      marks := sound.marks.begin _ }
  | update caller =>
    obtain ⟨free, rfl⟩ := ite_some_none_eq_some.mp stepped
    exact { sound with
      readings := sound.readings_start (some caller) trivial
      marks := { sound.marks with } }
  | get caller which =>
    obtain ⟨free, rfl⟩ := ite_some_none_eq_some.mp stepped
    exact { sound with
      readings := sound.readings_start (some caller) timely
      marks := { sound.marks with } }
  | read caller val =>
    obtain ⟨reading, known, mapped⟩ := bind_eq_some_iff.mp stepped
    obtain ⟨reg, next, rfl⟩ := map_eq_some_iff.mp mapped
    have marks : Marks part { s.chip with
        readings := update s.chip.readings caller (val.map fun val => reading.read val) } s.history.owed :=
      { sound.marks with }
    cases val with
    | none =>
      exact { sound with
        samples := fun sample among => by
          cases mem_append.mp among with
          | inl before => exact sound.samples sample before
          | inr new =>
            obtain rfl := mem_singleton.mp new
            exact timely
        readings := sound.readings_ended caller
        own := sound.own_ended caller
        marks }
    | some val =>
      have added (after : Chip) :
          s.history.add part s.chip after (.read caller (some val)) = s.history.read reg val := by
        unfold History.add
        dsimp only
        rw [known, bind_some, next, map_some, getD_some]
      rw [added]
      exact { sound with
        ports := sound.ports.read (timely reg (by rw [known, bind_some, next]; rfl))
        readings := sound.readings_start caller ((sound.readings caller reading known).read val)
        own := sound.own_read known val
        marks }
  | store caller =>
    obtain ⟨reading, known, mapped⟩ := bind_eq_some_iff.mp stepped
    obtain ⟨input, given, rfl⟩ := map_eq_some_iff.mp mapped
    obtain ⟨latest, seen, stand, attended⟩ := timely
    obtain rfl := Reading.input_levels (sound.readings caller reading known) (latest reading known) given
    have bits (pin : ℕ) (within : pin < getNrGpios part) := sound.stored stand seen within
    rw [intstatUpdate_eq] at bits ⊢
    exact { sound with
      samples := fun sample among => by
        cases mem_append.mp among with
        | inl before => exact sound.samples sample before
        | inr new =>
          obtain rfl := mem_singleton.mp new
          rfl
      ports := Ports.store part s.history.shown
      readings := sound.readings_ended caller
      own := sound.own_ended caller
      marks := {
        kept := fun pin within owed => by
          refine (bits pin within).trans ?_
          obtain before | new := Bool.or_eq_true_iff.mp owed
          · rw [sound.marks.kept pin within before, Bool.true_or]
          · rw [new, Bool.or_true]
        todo := fun quiet pin within set => by
          obtain before | new := Bool.or_eq_true_iff.mp ((bits pin within).symm.trans set)
          · exact sound.marks.todo quiet pin within before
          · exact (attended pin within new).2.imp id fun later => Handler.mem_todo (later.resolve_left quiet)
        called := fun pin within known => by
          change (s.history.owed pin || s.history.expected pin) = false
          rw [sound.marks.called pin within known, Bool.false_or]
          by_contra new
          exact (attended pin within (Bool.of_not_eq_false new)).1 known } }
  | snapshot =>
    obtain ⟨⟨updating, done⟩, rfl⟩ := ite_some_none_eq_some.mp stepped
    exact { sound with
      own := fun reading known => by
        change s.chip.readings none = some reading at known
        rw [done] at known
        cases known
      marks := sound.marks.snapshot }
  | call =>
    obtain ⟨pin, pins, here, called, rfl⟩ := call_cases stepped
    have attached : (s.chip.irqVector pin).isSome := timely pin (by rw [here]; rfl)
    have added (after : Chip) : s.history.add part s.chip after .call =
        { s.history with owed := update s.history.owed pin false } := by
      unfold History.add
      rw [here]
      exact if_pos attached
    rw [added]
    exact { sound with
      own := fun reading known => by
        obtain ⟨updating, -⟩ := sound.own reading known
        rw [here] at updating
        cases updating
      marks := sound.marks.call here called }
  | clear =>
    obtain ⟨pin, pins, here, rfl⟩ := clear_cases stepped
    exact { sound with
      own := fun reading known => by
        obtain ⟨updating, -⟩ := sound.own reading known
        rw [here] at updating
        cases updating
      marks := sound.marks.clear here }
  | finish =>
    obtain ⟨here, rfl⟩ := ite_some_none_eq_some.mp stepped
    exact { sound with
      own := fun reading known => by
        obtain ⟨updating, -⟩ := sound.own reading known
        rw [here] at updating
        cases updating
      marks := sound.marks.finish here }
  | mask which =>
    obtain rfl := Option.some.inj stepped
    exact { sound with marks := sound.marks.mask which }
  | unmask which =>
    obtain rfl := Option.some.inj stepped
    exact { sound with marks := sound.marks.unmask timely }
  | clearInterrupt which =>
    obtain rfl := Option.some.inj stepped
    exact { sound with marks := sound.marks.clearInterrupt which }
  | attach which isr base =>
    obtain ⟨-, rfl⟩ := ite_some_none_eq_some.mp stepped
    exact { sound with marks := { sound.marks with } }
  | setTrigger caller which type =>
    obtain ⟨within, high, apart⟩ := timely
    obtain ⟨free, set⟩ := Option.ite_none_left_eq_some.mp stepped
    have marks := sound.marks
    cases setting : type.setting with
    | none =>
      rw [setting] at set
      obtain rfl := Option.some.inj set
      exact { sound with }
    | some codes =>
      rw [setting] at set
      obtain rfl := Option.some.inj set
      have pin : uint8 which = which := uint8_inside within
      rw [pin]
      exact { sound with
        kinds := sound.kinds.setTrigger caller setting within high apart
        marks := { marks with } }
  | setLevel caller =>
    obtain ⟨own, found, set⟩ := bind_eq_some_iff.mp stepped
    obtain ⟨codes, setting, rfl⟩ := map_eq_some_iff.mp set
    have added (after : Chip) : s.history.add part s.chip after (.setLevel caller) =
        { s.history with
          configured := update s.history.configured own.which (Kind.make codes.1 codes.2) } := by
      unfold History.add
      dsimp only
      rw [found, bind_some, (setting_kind setting).1, map_some, getD_some]
    rw [added]
    exact { sound with
      kinds := sound.kinds.setLevel (List.mem_of_find?_eq_some found) setting
      marks := { sound.marks with } }

theorem History.due_eq_false (h : History) (other : ∀ caller, event ≠ .store caller) (pin : ℕ) :
    h.due event pin = false := by
  cases event with
  | store caller => exact absurd rfl (other caller)
  | _ => rfl

theorem step_intstat {s chip : Chip} (other : ∀ caller, event ≠ .store caller)
    (stepped : Interrupts.step part s event = some chip) :
    chip.intstat = s.intstat ∨ ∃ which : ℕ, chip.intstat = s.intstat &&& ~~~ (1#32 <<< which) := by
  cases event with
  | interrupt =>
    obtain rfl := Option.some.inj stepped
    exact Or.inl rfl
  | begin =>
    obtain ⟨-, started⟩ := Option.ite_none_right_eq_some.mp stepped
    obtain ⟨-, rfl⟩ := ite_some_none_eq_some.mp started
    exact Or.inl rfl
  | update caller | get caller which | snapshot | finish | attach which isr base =>
    obtain ⟨-, rfl⟩ := ite_some_none_eq_some.mp stepped
    exact Or.inl rfl
  | read caller val =>
    obtain ⟨reading, -, mapped⟩ := bind_eq_some_iff.mp stepped
    obtain ⟨reg, -, rfl⟩ := map_eq_some_iff.mp mapped
    exact Or.inl rfl
  | store caller => exact absurd rfl (other caller)
  | call =>
    obtain ⟨pin, pins, -, called, rfl⟩ := call_cases stepped
    exact Or.inl rfl
  | clear =>
    obtain ⟨pin, pins, -, rfl⟩ := clear_cases stepped
    exact Or.inr ⟨pin, rfl⟩
  | mask which | unmask which =>
    obtain rfl := Option.some.inj stepped
    exact Or.inl rfl
  | clearInterrupt which =>
    obtain rfl := Option.some.inj stepped
    exact Or.inr ⟨which, rfl⟩
  | setTrigger caller which type =>
    obtain ⟨-, set⟩ := Option.ite_none_left_eq_some.mp stepped
    split at set
    · obtain rfl := Option.some.inj set
      exact Or.inl rfl
    · obtain rfl := Option.some.inj set
      exact Or.inl rfl
  | setLevel caller =>
    obtain ⟨own, -, set⟩ := bind_eq_some_iff.mp stepped
    obtain ⟨codes, -, rfl⟩ := map_eq_some_iff.mp set
    exact Or.inl rfl

theorem Sound.moment (sound : Sound part s) (timely : Timely part s event) {chip : Chip}
    (stepped : Interrupts.step part s.chip event = some chip) :
    (⟨s.chip.intstat, chip.intstat, s.history.due event⟩ : Moment).Exact part := by
  intro pin within
  by_cases store : ∃ caller, event = .store caller
  · obtain ⟨caller, rfl⟩ := store
    obtain ⟨reading, known, mapped⟩ := bind_eq_some_iff.mp stepped
    obtain ⟨input, given, rfl⟩ := map_eq_some_iff.mp mapped
    obtain ⟨latest, seen, stand, -⟩ := timely
    obtain rfl := Reading.input_levels (sound.readings caller reading known) (latest reading known) given
    have bits := sound.stored stand seen within
    change ((intstatUpdate part s.chip _).intstat.getLsbD pin = true → _ ∨ s.history.expected pin = true) ∧
      (s.history.expected pin = true → (intstatUpdate part s.chip _).intstat.getLsbD pin = true)
    rw [bits]
    exact ⟨Bool.or_eq_true_iff.mp, fun new => Bool.or_eq_true_iff.mpr (Or.inr new)⟩
  · have other (caller : Option ℕ) : event ≠ .store caller := fun same => store ⟨caller, same⟩
    change (chip.intstat.getLsbD pin = true → s.chip.intstat.getLsbD pin = true ∨ s.history.due event pin = true) ∧
      (s.history.due event pin = true → chip.intstat.getLsbD pin = true)
    rw [s.history.due_eq_false other]
    refine ⟨fun set => Or.inl ?_, nofun⟩
    obtain same | ⟨which, cleared⟩ := step_intstat other stepped
    · rwa [same] at set
    · rw [cleared, clear_bit (pin_small within).1, Bool.and_eq_true] at set
      exact set.1

/-- A timely event keeps each recorded moment exact. -/
theorem Sound.moments_step (sound : Sound part s) (moments : ∀ moment ∈ s.history.moments, moment.Exact part)
    (timely : Timely part s event) (ran : s.step part event = some s') :
    ∀ moment ∈ s'.history.moments, moment.Exact part := by
  obtain ⟨chip, stepped, rfl⟩ := map_eq_some_iff.mp ran
  intro moment among
  cases mem_append.mp among with
  | inl before => exact moments moment before
  | inr new =>
    obtain rfl := mem_singleton.mp new
    exact sound.moment timely stepped

theorem Sound.start (part : Part) (memory : Memory) : Sound part (System.start part memory) where
  samples := nofun
  ports reg _ := by
    refine ⟨nofun, Or.inl ?_⟩
    change BitVec.extractLsb' (8 * reg) 8 0#32 = 0#8
    simp
  readings := nofun
  own := nofun
  kinds := ⟨fun _ _ _ => rfl, nofun⟩
  marks := by
    refine ⟨nofun, fun _ pin _ set => ?_, nofun⟩
    change (0#32).getLsbD pin = true at set
    rw [BitVec.getLsbD_zero] at set
    cases set

theorem Sound.goes (sound : Sound part s) (busy : s.chip.Runs ∨ s.chip.handler ≠ .idle) :
    ∃ event : Event, event.own ∧ (Interrupts.step part s.chip event).isSome := by
  cases here : s.chip.handler with
  | idle =>
    obtain ⟨thread, queued⟩ : s.chip.thread = true ∧ 0 < s.chip.queued := by
      obtain (updating | ready) | differs := busy
      · rw [here] at updating
        cases updating
      · exact ready
      · exact absurd here differs
    have free : s.chip.readings none = none := by
      cases known : s.chip.readings none with
      | none => rfl
      | some reading =>
        obtain ⟨updating, -⟩ := sound.own reading known
        rw [here] at updating
        cases updating
    refine ⟨.begin, trivial, ?_⟩
    unfold Interrupts.step Chip.start
    dsimp only
    rw [if_pos ⟨thread, queued, here⟩, if_pos free]
    rfl
  | updating =>
    cases known : s.chip.readings none with
    | none =>
      refine ⟨.snapshot, trivial, ?_⟩
      unfold Interrupts.step
      dsimp only
      rw [if_pos ⟨here, known⟩]
      rfl
    | some reading =>
      obtain ⟨-, i, input, rfl⟩ := sound.own reading known
      by_cases more : i < getNrGpios part
      · refine ⟨.read none none, trivial, ?_⟩
        unfold Interrupts.step Chip.read Reading.reg
        dsimp only
        rw [known, bind_some]
        dsimp only
        rw [if_pos more]
        rfl
      · refine ⟨.store none, trivial, ?_⟩
        unfold Interrupts.step Chip.store Reading.input
        dsimp only
        rw [known, bind_some]
        dsimp only
        rw [if_neg more]
        rfl
  | dispatching pins =>
    cases pins with
    | nil =>
      refine ⟨.finish, trivial, ?_⟩
      unfold Interrupts.step
      dsimp only
      rw [if_pos here]
      rfl
    | cons pin pins =>
      refine ⟨.call, trivial, ?_⟩
      unfold Interrupts.step Chip.call
      dsimp only
      rw [here]
      rfl
  | clearing pin pins =>
    refine ⟨.clear, trivial, ?_⟩
    unfold Interrupts.step Chip.clear
    dsimp only
    rw [here]
    rfl

/-- The handlers of a sound expander were called for all that happened. -/
theorem Sound.delivered (sound : Sound part s) (moments : ∀ moment ∈ s.history.moments, moment.Exact part) :
    Delivered part s where
  samples := sound.samples
  moments := moments
  kinds := sound.kinds.idle
  kept := sound.marks.kept
  handled quiet idle pin within set := by
    refine (sound.marks.todo quiet pin within set).resolve_right fun among => ?_
    rw [idle] at among
    cases among
  goes := sound.goes

end Step

/-- In a run where every step is timely, the interrupts of the pins are delivered. -/
theorem interrupts_delivered (part : Part) (memory : Memory) {events : List Event} {s : System}
    (guarded : Guarded (System.step part) (Timely part) (System.start part memory) events)
    (ran : run (System.step part) (System.start part memory) events = some s) : Delivered part s := by
  have both := run_invariant_of_guarded (fun s => Sound part s ∧ ∀ moment ∈ s.history.moments, moment.Exact part)
    ⟨Sound.start part memory, nofun⟩ guarded ran fun before timely stepped =>
    ⟨before.1.step timely stepped, before.1.moments_step before.2 timely stepped⟩
  exact both.1.delivered both.2

/-- Memory that is 0, with a thread on the work queue or without one -/
def clearMemory (thread : Bool) : Memory := ⟨0, 0, fun _ => none, fun _ => 0, thread⟩

/-- A pin with a handler falls while it is not masked. -/
def pinFalls : List Event :=
  [.attach 3 7 40, .setTrigger 0 3 .edgeFalling, .setLevel 0, .update 1, .read (some 1) (some 0x08), .store (some 1),
    .unmask 3, .interrupt, .begin, .read none (some 0), .store none, .snapshot, .call, .clear, .finish]

/-- A pin falls while it is masked, and what it left is cleared. -/
def maskedPinFalls : List Event :=
  [.setTrigger 0 3 .edgeFalling, .setLevel 0, .update 1, .read (some 1) (some 0x08), .store (some 1), .get 2 3,
    .read (some 2) (some 0), .store (some 2), .clearInterrupt 3, .unmask 3]

theorem interrupts_delivered_pinFalls :
    (∃ s, run (System.step .tca6408) (System.start .tca6408 (clearMemory true)) pinFalls = some s ∧
      s.chip.called = [(7, 43)] ∧ Delivered .tca6408 s) ∧
    ∃ s, run (System.step .tca6408) (System.start .tca6408 (clearMemory false)) maskedPinFalls = some s ∧
      s.history.samples = [(8, 8), (0, 0)] ∧ Delivered .tca6408 s := by
  have handled : (run (System.step .tca6408) (System.start .tca6408 (clearMemory true)) pinFalls).map
      (fun s => s.chip.called) = some [(7, 43)] := by decide +kernel
  have masked : (run (System.step .tca6408) (System.start .tca6408 (clearMemory false)) maskedPinFalls).map
      (fun s => s.history.samples) = some [(8, 8), (0, 0)] := by decide +kernel
  obtain ⟨first, ran, called⟩ := map_eq_some_iff.mp handled
  obtain ⟨second, ran', samples⟩ := map_eq_some_iff.mp masked
  refine ⟨⟨first, ran, called, interrupts_delivered .tca6408 (clearMemory true) ?_ ran⟩,
    ⟨second, ran', samples, interrupts_delivered .tca6408 (clearMemory false) ?_ ran'⟩⟩
  · decide +kernel
  · decide +kernel

/-- A pin of the second port is high when a pin of the first port is read. -/
def readFirstPort : List Event :=
  [.update 0, .read (some 0) (some 0), .read (some 0) (some 1), .store (some 0), .get 0 0, .read (some 0) (some 0),
    .store (some 0)]

/-- The stored level of the other pin is lost. -/
theorem tca64xx_get_loses_levels :
    ∃ s, run (System.step .tca6416) (System.start .tca6416 (clearMemory false)) readFirstPort = some s ∧
      s.history.samples = [(0x100, 0x100), (0, 0x100)] ∧ ¬Delivered .tca6416 s := by
  refine exists_final (fun s => s.history.samples) [(0x100, 0x100), (0, 0x100)] (by decide +kernel)
    fun s ran samples => ?_
  refine ⟨samples, fun delivered => ?_⟩
  have same := delivered.samples (0, 0x100) (by rw [samples]; decide)
  exact absurd same (by decide)

end Phabos.Tca64xx.Interrupts
