import Phabos.Construction.Svc.RoutingTable
import Phabos.Proof.Svc.RegisterFile

namespace Phabos.Switch
open Function List

theorem maskIndex_lt (device : Nat) : 15 - device / 8 < 16 := by
  omega

/-- The bit of a device id below 128 in a mask, whose bytes are in reverse order -/
def maskBit (mask : Mask) (device : Nat) : Bool :=
  (mask.get ⟨15 - device / 8, maskIndex_lt device⟩).getLsbD (device % 8)

theorem getLsbD_shift_one {index bit : Nat} (inByte : index < 8) :
    (1#8 <<< bit).getLsbD index = decide (index = bit) := by
  rw [BitVec.getLsbD_shiftLeft, BitVec.getLsbD_one]
  grind

theorem and_shift_one_ne_zero (byte : Byte) {bit : Nat} (inByte : bit < 8) :
    byte &&& 1#8 <<< bit ≠ 0 ↔ byte.getLsbD bit = true := by
  constructor
  · intro nonzero
    apply Classical.byContradiction
    intro clear
    apply nonzero
    apply BitVec.eq_of_getLsbD_eq
    intro index inRange
    rw [BitVec.getLsbD_and, getLsbD_shift_one inRange]
    by_cases same : index = bit
    · subst same
      simp [clear]
    · simp [same]
  · intro set zero
    have bits := congrArg (fun value : Byte => value.getLsbD bit) zero
    simp only [BitVec.getLsbD_and, getLsbD_shift_one inByte, set] at bits
    simp at bits

theorem setValidEntry_bit (mask : Mask) {entry : Byte} (inside : entry.toNat < 128) :
    ∃ set, setValidEntry mask entry = some set ∧
      ∀ device < 128, maskBit set device = (maskBit mask device || decide (device = entry.toNat)) := by
  refine ⟨_, if_pos (by omega), ?_⟩
  intro device below
  have byte (mask : Mask) :
      maskBit mask device = mask[(⟨15 - device / 8, maskIndex_lt device⟩ : Fin 16)].getLsbD (device % 8) := rfl
  simp only [byte, Fin.getElem_fin]
  rw [Vector.getElem_set]
  by_cases sameByte : 15 - entry.toNat / 8 = 15 - device / 8
  · rw [if_pos sameByte, BitVec.getLsbD_or, getLsbD_shift_one (by omega)]
    have samePlace : (device % 8 = entry.toNat % 8) = (device = entry.toNat) := by
      apply propext
      omega
    simp only [samePlace, ← sameByte]
  · rw [if_neg sameByte, decide_eq_false (by omega), Bool.or_false]

theorem setValidEntry_outside {mask : Mask} {entry : Byte} (outside : 128 ≤ entry.toNat) :
    setValidEntry mask entry = none :=
  if_neg (by omega)

theorem checkValidEntry_bit (mask : Mask) {device : Nat} (below : device < 128) :
    checkValidEntry mask device = some (maskBit mask device) := by
  unfold checkValidEntry
  rw [if_pos (by omega)]
  apply congrArg some
  rw [Bool.eq_iff_iff, decide_eq_true_iff]
  exact and_shift_one_ne_zero _ (by omega)

theorem es2DevIdMaskGet_registers (registers : Registers) (port : Byte) (dst : Mask) :
    es2DevIdMaskGet registerTransfer port dst registers = ((0, registers (.devIdMask port)), registers) :=
  es2GetCell_registers registers (.devIdMask port) dst

theorem es2DevIdMaskSet_registers (registers : Registers) (port : Byte) (mask : Mask) :
    es2DevIdMaskSet registerTransfer port mask registers =
      (0, update registers (.devIdMask port) mask) :=
  es2SetCell_registers registers (.devIdMask port) mask

theorem es2LutSet_registers (registers : Registers) (port device dest : Byte) :
    es2LutSet registerTransfer port device dest registers =
      (0, update registers (.lut port device) dest) :=
  es2SetCell_registers registers (.lut port device) dest

theorem es2LutGet_registers (registers : Registers) (port device dest : Byte) :
    es2LutGet registerTransfer port device dest registers = ((0, registers (.lut port device)), registers) :=
  es2GetCell_registers registers (.lut port device) dest

variable {State α β : Type} {next : α → OptionT (StateM State) β} {before after : State}

theorem run_lift {step : StateM State α} {a : α} (stepped : step before = (a, after)) :
    (liftM step >>= next : OptionT (StateM State) β).run before = (next a).run after := by
  change (match step before with | (x, s) => (next x).run s) = _
  rw [stepped]

theorem run_some {result : Option α} {state : State} {a : α} (present : result = some a) :
    (OptionT.mk (pure result) >>= next : OptionT (StateM State) β).run state = (next a).run state := by
  subst present
  rfl

theorem run_none {result : Option α} {state : State} (missing : result = none) :
    (OptionT.mk (pure result) >>= next : OptionT (StateM State) β).run state = (none, state) := by
  subst missing
  rfl

theorem run_next {first : OptionT (StateM State) α} {a : α} (stepped : first.run before = (some a, after)) :
    (first >>= next).run before = (next a).run after := by
  rw [OptionT.run_bind]
  simp only [Option.elimM, bind, StateT.bind, stepped]
  rfl

theorem run_stop {first : OptionT (StateM State) α} (stepped : first.run before = (none, after)) :
    (first >>= next).run before = (none, after) := by
  rw [OptionT.run_bind]
  simp only [Option.elimM, bind, StateT.bind, stepped]
  rfl

variable {port device : Byte}

theorem switchSetupMask_registers {registers : Registers} {idMask set : Mask}
    (inside : setValidEntry (registers (.devIdMask port)) device = some set) :
    (switchSetupMask (es2RoutingOps registerTransfer) idMask port device).run registers =
      (some (0, set), update registers (.devIdMask port) set) := by
  refine (run_lift (es2DevIdMaskGet_registers registers port idMask)).trans ?_
  refine (run_some inside).trans ?_
  exact run_lift (es2DevIdMaskSet_registers registers port set)

theorem switchSetupMask_outside {registers : Registers} {idMask : Mask}
    (outside : setValidEntry (registers (.devIdMask port)) device = none) :
    (switchSetupMask (es2RoutingOps registerTransfer) idMask port device).run registers = (none, registers) := by
  refine (run_lift (es2DevIdMaskGet_registers registers port idMask)).trans ?_
  exact run_none outside

theorem switchSetupLut_registers (constants : RoutingConstants) (registers : Registers) (port device dest : Byte) :
    (switchSetupLut (es2RoutingOps registerTransfer) constants port device dest).run registers =
      (some 0, update registers (.lut port device) dest) :=
  run_lift (es2LutSet_registers registers port device dest)

/-- The registers after a call with these masks -/
def Route.registers (route : Route) (before : Registers) (set0 set1 : Mask) : Registers :=
  Function.update
    (Function.update
      (Function.update (Function.update before (.devIdMask route.portId0) set0) (.devIdMask route.portId1) set1)
      (.lut route.portId0 route.deviceId1) route.portId1)
    (.lut route.portId1 route.deviceId0) route.portId0

theorem setup_registers (constants : RoutingConstants) (idMask : Mask) {route : Route} {before : Registers}
    {set0 set1 : Mask} (apart : route.portId0 ≠ route.portId1)
    (inside0 : setValidEntry (before (.devIdMask route.portId0)) route.deviceId1 = some set0)
    (inside1 : setValidEntry (before (.devIdMask route.portId1)) route.deviceId0 = some set1) :
    route.setup constants idMask before = (some 0, route.registers before set0 set1) := by
  have kept : update before (.devIdMask route.portId0) set0 (.devIdMask route.portId1) =
      before (.devIdMask route.portId1) := by
    apply update_of_ne
    intro same
    exact apart (Cell.devIdMask.inj same).symm
  refine (run_next (switchSetupMask_registers inside0)).trans ?_
  refine (run_next (switchSetupMask_registers ((congrArg (setValidEntry · _) kept).trans inside1))).trans ?_
  refine (run_next (switchSetupLut_registers ..)).trans ?_
  exact switchSetupLut_registers ..

/-- A route with a large device id is refused. -/
theorem setup_outside (constants : RoutingConstants) (idMask : Mask) (route : Route) (before : Registers)
    (large : 128 ≤ route.deviceId0.toNat ∨ 128 ≤ route.deviceId1.toNat) :
    (route.setup constants idMask before).1 = none := by
  unfold Route.setup
  by_cases large1 : 128 ≤ route.deviceId1.toNat
  · exact congrArg Prod.fst (run_stop (switchSetupMask_outside (setValidEntry_outside large1)))
  · obtain ⟨set1, inside1, _⟩ := setValidEntry_bit (before (.devIdMask route.portId0)) (Nat.lt_of_not_le large1)
    have large0 := large.resolve_right large1
    refine (congrArg Prod.fst (run_next (switchSetupMask_registers inside1))).trans ?_
    exact congrArg Prod.fst (run_stop (switchSetupMask_outside (setValidEntry_outside large0)))

/-- A call enters the port and device id pairs on both of its sides. -/
def Route.Enters (route : Route) (port device : Byte) : Prop :=
  port = route.portId0 ∧ device = route.deviceId1 ∨ port = route.portId1 ∧ device = route.deviceId0

instance (route : Route) (port device : Byte) : Decidable (route.Enters port device) :=
  inferInstanceAs (Decidable (_ ∨ _))

/-- What a call has to change, and what it has to leave as it was -/
structure Route.Established (route : Route) (before after : Registers) : Prop where
  forward : after (.lut route.portId0 route.deviceId1) = route.portId1
  backward : after (.lut route.portId1 route.deviceId0) = route.portId0
  lut : ∀ port device, ¬ route.Enters port device → after (.lut port device) = before (.lut port device)
  forwardBit : route.deviceId1.toNat < 128 ∧
    maskBit (after (.devIdMask route.portId0)) route.deviceId1.toNat = true
  backwardBit : route.deviceId0.toNat < 128 ∧
    maskBit (after (.devIdMask route.portId1)) route.deviceId0.toNat = true
  mask : ∀ port device : Byte, device.toNat < 128 → ¬ route.Enters port device →
    maskBit (after (.devIdMask port)) device.toNat = maskBit (before (.devIdMask port)) device.toNat
  attr : ∀ port attrid selector, after (.attr port attrid selector) = before (.attr port attrid selector)
  peerAttr : ∀ port attrid selector,
    after (.peerAttr port attrid selector) = before (.peerAttr port attrid selector)
  sysCtrl : ∀ address, after (.sysCtrl address) = before (.sysCtrl address)
  switchAttr : ∀ attrid, after (.switchAttr attrid) = before (.switchAttr attrid)

section Registers
variable {route : Route} {before : Registers} {set0 set1 : Mask}

theorem registers_lut (port device : Byte) (outside : ¬ route.Enters port device) :
    route.registers before set0 set1 (.lut port device) = before (.lut port device) := by
  unfold Route.Enters at outside
  simp only [Route.registers, update]
  grind

theorem registers_mask0 (apart : route.portId0 ≠ route.portId1) :
    route.registers before set0 set1 (.devIdMask route.portId0) = set0 := by
  simp [Route.registers, update, apart]

theorem registers_mask1 : route.registers before set0 set1 (.devIdMask route.portId1) = set1 := by
  simp [Route.registers, update]

theorem registers_mask {port : Byte} (other0 : port ≠ route.portId0) (other1 : port ≠ route.portId1) :
    route.registers before set0 set1 (.devIdMask port) = before (.devIdMask port) := by
  simp [Route.registers, update, other0, other1]

end Registers

/-- A route with small device ids sets the entries and mask bits of both ports. -/
theorem setup_established (constants : RoutingConstants) (idMask : Mask) {route : Route} (before : Registers)
    (apart : route.portId0 ≠ route.portId1) (small0 : route.deviceId0.toNat < 128)
    (small1 : route.deviceId1.toNat < 128) :
    ∃ after, route.setup constants idMask before = (some 0, after) ∧ route.Established before after := by
  obtain ⟨set0, inside0, bits0⟩ := setValidEntry_bit (before (.devIdMask route.portId0)) small1
  obtain ⟨set1, inside1, bits1⟩ := setValidEntry_bit (before (.devIdMask route.portId1)) small0
  refine ⟨_, setup_registers constants idMask apart inside0 inside1, ?_⟩
  constructor
  case forward => simp [Route.registers, update, apart]
  case backward => simp [Route.registers, update]
  case lut => exact registers_lut
  case forwardBit =>
    refine ⟨small1, ?_⟩
    rw [registers_mask0 apart, bits0 _ small1, decide_eq_true rfl, Bool.or_true]
  case backwardBit =>
    refine ⟨small0, ?_⟩
    rw [registers_mask1, bits1 _ small0, decide_eq_true rfl, Bool.or_true]
  case mask =>
    intro port device below outside
    by_cases first : port = route.portId0
    · subst first
      have other : device.toNat ≠ route.deviceId1.toNat := by
        intro same
        exact outside (.inl ⟨rfl, BitVec.eq_of_toNat_eq same⟩)
      rw [registers_mask0 apart, bits0 _ below, decide_eq_false other, Bool.or_false]
    · by_cases second : port = route.portId1
      · subst second
        have other : device.toNat ≠ route.deviceId0.toNat := by
          intro same
          exact outside (.inr ⟨rfl, BitVec.eq_of_toNat_eq same⟩)
        rw [registers_mask1, bits1 _ below, decide_eq_false other, Bool.or_false]
      · rw [registers_mask first second]
  all_goals intros; rfl

theorem Route.Established.bit {route : Route} {before after : Registers} (established : route.Established before after)
    (below : device.toNat < 128) :
    maskBit (after (.devIdMask port)) device.toNat = true ↔
      maskBit (before (.devIdMask port)) device.toNat = true ∨ route.Enters port device := by
  by_cases enters : route.Enters port device
  · refine iff_of_true ?_ (.inr enters)
    rcases enters with ⟨rfl, rfl⟩ | ⟨rfl, rfl⟩
    · exact established.forwardBit.2
    · exact established.backwardBit.2
  · rw [established.mask port device below enters]
    exact (or_iff_left enters).symm

/-- The lines of the dump for a port -/
def Registers.lines (registers : Registers) (port : Nat) : List Line :=
  ((List.range 128).filter (maskBit (registers (.devIdMask (.ofNat 8 port))))).map
    fun device => (port, device, registers (.lut (.ofNat 8 port) (.ofNat 8 device)))

theorem dumpDevices_registers (registers : Registers) (port : Nat) (mask : Mask) (devices : List Nat)
    (below : ∀ device ∈ devices, device < 128) (p : Byte) :
    ∃ last, (dumpDevices (es2RoutingOps registerTransfer) port mask devices p).run registers =
      (some (last, (devices.filter (maskBit mask)).map
        fun device => (port, device, registers (.lut (.ofNat 8 port) (.ofNat 8 device)))), registers) := by
  induction devices generalizing p with
  | nil => exact ⟨p, rfl⟩
  | cons device rest inductionHypothesis =>
    have restBelow : ∀ other ∈ rest, other < 128 := fun other within => below other (.tail _ within)
    have tested := checkValidEntry_bit mask (below device mem_cons_self)
    unfold dumpDevices
    cases valid : maskBit mask device with
    | false =>
      rw [valid] at tested
      obtain ⟨last, dumped⟩ := inductionHypothesis restBelow p
      refine ⟨last, (run_some tested).trans ?_⟩
      rw [filter_cons_of_neg (by simp [valid])]
      exact dumped
    | true =>
      rw [valid] at tested
      obtain ⟨last, dumped⟩ := inductionHypothesis restBelow (registers (.lut (.ofNat 8 port) (.ofNat 8 device)))
      refine ⟨last, (run_some tested).trans ?_⟩
      refine (run_lift (es2LutGet_registers registers _ _ p)).trans ?_
      refine (run_next dumped).trans ?_
      rw [filter_cons_of_pos valid]
      rfl

theorem dumpPorts_registers (registers : Registers) (ports : List Nat) (mask : Mask) (p : Byte) :
    (dumpPorts (es2RoutingOps registerTransfer) mask ports p).run registers =
      (some (0, ports.flatMap registers.lines), registers) := by
  induction ports generalizing mask p with
  | nil => rfl
  | cons port rest inductionHypothesis =>
    have devices : ((range 8).flatMap fun i => (range 16).map fun j => i * 16 + j) = range 128 :=
      rfl
    unfold dumpPorts
    refine (run_lift (es2DevIdMaskGet_registers registers _ mask)).trans ?_
    obtain ⟨last, dumped⟩ := dumpDevices_registers registers port (registers (.devIdMask (.ofNat 8 port)))
      (range 128) (fun device within => mem_range.mp within) p
    rw [← devices] at dumped
    refine (run_next dumped).trans ?_
    refine (run_next (inductionHypothesis _ last)).trans ?_
    rfl

/-- A dump prints the lines of all ports and changes nothing. -/
theorem dump_registers (registers : Registers) (mask : Mask) :
    registers.dump mask = (some (0, (range 15).flatMap registers.lines), registers) :=
  dumpPorts_registers registers (range 15) mask 0

theorem mem_dump {registers : Registers} {port device dest : Byte} :
    (port.toNat, device.toNat, dest) ∈ (range 15).flatMap registers.lines ↔
      port.toNat ≤ 14 ∧ device.toNat < 128 ∧ maskBit (registers (.devIdMask port)) device.toNat = true ∧
        dest = registers (.lut port device) := by
  simp only [Registers.lines, mem_flatMap, mem_map, mem_filter, mem_range]
  constructor
  · rintro ⟨shown, inPorts, listed, ⟨below, set⟩, same⟩
    obtain ⟨rfl, rfl, rfl⟩ : shown = port.toNat ∧ listed = device.toNat ∧ _ = dest := by simpa using same
    rw [BitVec.ofNat_toNat, BitVec.setWidth_eq] at set ⊢
    rw [BitVec.ofNat_toNat, BitVec.setWidth_eq]
    exact ⟨by omega, below, set, rfl⟩
  · rintro ⟨inPorts, below, set, rfl⟩
    refine ⟨port.toNat, by omega, device.toNat, ?_⟩
    rw [BitVec.ofNat_toNat, BitVec.setWidth_eq, BitVec.ofNat_toNat, BitVec.setWidth_eq]
    exact ⟨⟨below, set⟩, rfl⟩

/-- The lines of a dump are the entries whose mask bit is set. -/
theorem mem_dump_line {registers : Registers} {line : Line} :
    line ∈ (range 15).flatMap registers.lines ↔
      ∃ port device : Byte, line = (port.toNat, device.toNat, registers (.lut port device)) ∧ port.toNat ≤ 14 ∧
        device.toNat < 128 ∧ maskBit (registers (.devIdMask port)) device.toNat = true := by
  constructor
  · intro within
    have located := within
    simp only [Registers.lines, mem_flatMap, mem_map, mem_filter, mem_range] at located
    obtain ⟨shown, inPorts, listed, ⟨below, _⟩, rfl⟩ := located
    have portNat : (BitVec.ofNat 8 shown).toNat = shown := Nat.mod_eq_of_lt (by omega)
    have deviceNat : (BitVec.ofNat 8 listed).toNat = listed := Nat.mod_eq_of_lt (by omega)
    refine ⟨.ofNat 8 shown, .ofNat 8 listed, by rw [portNat, deviceNat], ?_⟩
    rw [← portNat, ← deviceNat, mem_dump] at within
    exact ⟨within.1, within.2.1, within.2.2.1⟩
  · rintro ⟨port, device, rfl, inPorts, below, set⟩
    exact mem_dump.mpr ⟨inPorts, below, set, rfl⟩

/-- The device ids of a call are in the range of a mask. -/
def Route.Small (route : Route) : Prop := route.deviceId0.toNat < 128 ∧ route.deviceId1.toNat < 128

/-- After all routes a mask bit is set exactly when a route or the registers before had set it. -/
theorem setupAll_bits (constants : RoutingConstants) (idMask : Mask) (routes : List Route) (before : Registers)
    (apart : ∀ route ∈ routes, route.portId0 ≠ route.portId1) (small : ∀ route ∈ routes, route.Small) :
    ∃ final, setupAll constants idMask routes before = some final ∧
      ∀ port device : Byte, device.toNat < 128 →
        (maskBit (final (.devIdMask port)) device.toNat = true ↔
          maskBit (before (.devIdMask port)) device.toNat = true ∨ ∃ route ∈ routes, route.Enters port device) := by
  induction routes generalizing before with
  | nil => exact ⟨before, rfl, fun port device _ => by simp⟩
  | cons route rest inductionHypothesis =>
    obtain ⟨small0, small1⟩ := small route mem_cons_self
    obtain ⟨after, called, established⟩ :=
      setup_established constants idMask before (apart route mem_cons_self) small0 small1
    obtain ⟨final, finished, bits⟩ := inductionHypothesis after
      (fun other within => apart other (.tail _ within)) (fun other within => small other (.tail _ within))
    refine ⟨final, ?_, ?_⟩
    · unfold setupAll
      rw [called, if_pos rfl]
      exact finished
    · intro port device below
      rw [bits port device below, established.bit below]
      simp only [mem_cons, exists_eq_or_imp, or_assoc]

/-- Every call of a run returns 0 and establishes its route, inside of its buffer. The dump afterwards reports the
pairs that were there at first and those of the calls, for the ports of the switch, with their destinations. -/
def RoutesExact (constants : RoutingConstants) (idMask : Mask) (registers : Registers) (routes : List Route) :
    Prop :=
  (∀ earlier route later, routes = earlier ++ route :: later →
    ∃ before after, setupAll constants idMask earlier registers = some before ∧
      route.setup constants idMask before = (some 0, after) ∧ route.Established before after) ∧
  ∃ final lines, setupAll constants idMask routes registers = some final ∧
    final.dump idMask = (some (0, lines), final) ∧
    ∀ line, line ∈ lines ↔
      ∃ port device : Byte, line = (port.toNat, device.toNat, final (.lut port device)) ∧ port.toNat ≤ 14 ∧
        (device.toNat < 128 ∧ maskBit (registers (.devIdMask port)) device.toNat = true ∨
          ∃ route ∈ routes, route.Enters port device)

theorem Route.Small.entered {route : Route} (small : route.Small) (enters : route.Enters port device) :
    device.toNat < 128 := by
  rcases enters with ⟨_, rfl⟩ | ⟨_, rfl⟩
  · exact small.2
  · exact small.1

/-- A run of calls is exact if and only if all device ids are below 128. -/
theorem routing_table_exact (constants : RoutingConstants) (idMask : Mask) (registers : Registers)
    (routes : List Route) (apart : ∀ route ∈ routes, route.portId0 ≠ route.portId1) :
    RoutesExact constants idMask registers routes ↔ ∀ route ∈ routes, route.Small := by
  constructor
  · rintro ⟨calls, _⟩ route within
    obtain ⟨earlier, later, split⟩ := List.append_of_mem within
    obtain ⟨before, after, _, called, _⟩ := calls earlier route later split
    apply Classical.byContradiction
    intro large
    have outside := setup_outside constants idMask route before (by unfold Route.Small at large; omega)
    rw [called] at outside
    cases outside
  · intro small
    refine ⟨?_, ?_⟩
    · intro earlier route later split
      have part : ∀ other ∈ earlier, other ∈ routes := fun other within => by simp [split, within]
      have here : route ∈ routes := by simp [split]
      obtain ⟨before, reached, _⟩ := setupAll_bits constants idMask earlier registers
        (fun other within => apart other (part other within)) (fun other within => small other (part other within))
      obtain ⟨after, called, established⟩ :=
        setup_established constants idMask before (apart route here) (small route here).1 (small route here).2
      exact ⟨before, after, reached, called, established⟩
    · obtain ⟨final, finished, bits⟩ := setupAll_bits constants idMask routes registers apart small
      refine ⟨final, _, finished, dump_registers final idMask, ?_⟩
      intro line
      rw [mem_dump_line]
      refine exists_congr fun port => exists_congr fun device => and_congr_right fun _ => and_congr_right fun _ => ?_
      constructor
      · rintro ⟨below, set⟩
        exact ((bits port device below).mp set).imp_left fun initial => ⟨below, initial⟩
      · rintro (⟨below, initial⟩ | ⟨route, within, enters⟩)
        · exact ⟨below, (bits port device below).mpr (.inl initial)⟩
        · have below := (small route within).entered enters
          exact ⟨below, (bits port device below).mpr (.inr ⟨route, within, enters⟩)⟩

/-- The routes between the switch and the devices with the ids 1 on port 3 and 2 on port 5 -/
def initialRoutes : List Route := [⟨0, 14, 1, 3⟩, ⟨0, 14, 2, 5⟩]

theorem routing_table_exact_initial :
    RoutesExact ⟨0xffff, 0⟩ (Vector.replicate 16 0) Registers.clear initialRoutes :=
  (routing_table_exact _ _ _ initialRoutes (by decide)).mpr (by unfold Route.Small; decide)

/-- A route to the device id 128 -/
def largeRoute : Route := ⟨0, 14, 128, 3⟩

/-- The call writes before its buffer. -/
theorem switch_setup_routing_table_leaves_mask :
    ¬ RoutesExact ⟨0xffff, 0⟩ (Vector.replicate 16 0) Registers.clear [largeRoute] := by
  intro routesExact
  obtain ⟨before, after, _, called, _⟩ := routesExact.1 [] largeRoute [] rfl
  have outside := setup_outside ⟨0xffff, 0⟩ (Vector.replicate 16 0) largeRoute before (.inr (by decide))
  rw [called] at outside
  cases outside

end Phabos.Switch
