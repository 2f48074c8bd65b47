import Mathlib.Data.List.Infix
import Phabos.Library.Ring
import Phabos.Library.Run
import Phabos.Construction.Serial.Uart16550

namespace Phabos.Serial

open Library List

/-- The bytes that a writer has not stored yet -/
def Writer.rest (writer : Writer) : List Byte := writer.buffer.drop writer.nwrite

section Places
variable (config : UartConfig)

/-- The ring has room for one more byte. -/
def Uart.Room (uart : Uart) : Prop := uart.stored.length + 1 < uart.sent.length + config.maxOutput

/-- `tx_end` is the slot of the next byte. -/
def Uart.Clear (uart : Uart) : Prop := uart.txEnd = uart.stored.length % config.maxOutput

/-- What holds at each place of a writer -/
def Uart.At (uart : Uart) (writer : Writer) : WritePlace → Prop
  | .looping => uart.Clear config ∧ writer.nwrite ≤ writer.buffer.length
  | .testing nextPos =>
    uart.Clear config ∧ writer.nwrite < writer.buffer.length ∧ nextPos = (uart.stored.length + 1) % config.maxOutput
  | .downing nextPos =>
    uart.Clear config ∧ writer.nwrite < writer.buffer.length ∧
      nextPos = (uart.stored.length + 1) % config.maxOutput ∧ (uart.txStart = nextPos ∨ uart.txSemaphore ≠ 0)
  | .storing => uart.Clear config ∧ writer.nwrite < writer.buffer.length ∧ uart.Room config
  | .halfway index =>
    index = uart.stored.length % config.maxOutput ∧ writer.nwrite < writer.buffer.length ∧ uart.Room config ∧
      if config.slotFirst then uart.txEnd = index ∧ uart.txBuffer index = writer.byte else uart.txEnd = index + 1
  | .wrapping =>
    0 < uart.stored.length ∧ uart.txEnd = (uart.stored.length - 1) % config.maxOutput + 1 ∧
      writer.nwrite ≤ writer.buffer.length
  | .leaving => uart.Clear config ∧ writer.rest = []

/-- The ring holds the bytes that have been stored and not sent. -/
structure Held (txBuffer : Nat → Byte) (txStart : Nat) (stored sent : List Byte) (accesses : List Nat) : Prop where
  fill : sent.length ≤ stored.length
  room : stored.length < sent.length + config.maxOutput
  ring : InRing txBuffer config.maxOutput sent.length stored
  inOrder : sent <+: stored
  start : txStart = sent.length % config.maxOutput
  inside : ∀ index ∈ accesses, index < config.maxOutput

def Uart.Held (uart : Uart) : Prop :=
  Serial.Held config uart.txBuffer uart.txStart uart.stored uart.sent uart.accesses

structure Uart.Sound (uart : Uart) : Prop where
  held : uart.Held config
  stream : uart.calls.flatten = uart.stored ++ (uart.writer.map Writer.rest).getD []
  free : uart.writer = none → uart.Clear config
  place : ∀ writer, uart.writer = some writer → uart.At config writer writer.place

end Places

variable {config : UartConfig} {uart : Uart}

theorem held_uartRegister (positive : 0 < config.maxOutput) (txBuffer : Nat → Byte) :
    (uartRegister txBuffer).Held config where
  fill := Nat.le_refl _
  room := by
    change 0 < 0 + config.maxOutput
    omega
  ring := inRing_nil _ _ _
  inOrder := prefix_refl _
  start := (Nat.zero_mod _).symm
  inside := by
    intro index within
    cases within

theorem sound_uartRegister (positive : 0 < config.maxOutput) (txBuffer : Nat → Byte) :
    (uartRegister txBuffer).Sound config where
  held := held_uartRegister positive txBuffer
  stream := rfl
  free := by
    intro _
    exact (Nat.zero_mod _).symm
  place := by
    intro writer writes
    cases writes

theorem Uart.Held.ends_eq (held : uart.Held config) :
    uart.sent.length % config.maxOutput = uart.stored.length % config.maxOutput ↔
      uart.sent.length = uart.stored.length :=
  ⟨fun same => eq_of_mod_eq same held.fill held.room, fun same => by rw [same]⟩

variable {writer : Writer}

/-- A byte that is sent leaves one permit more when the count has room for it. -/
theorem sendOne_permits (config : UartConfig) (room : uart.txSemaphore.toNat + 1 < 2 ^ 32) :
    (uart.sendOne config).txSemaphore.toNat = uart.txSemaphore.toNat + 1 := by
  change (uart.txSemaphore + 1).toNat = _
  rw [BitVec.toNat_add, show (1 : BitVec 32).toNat = 1 from rfl, Nat.mod_eq_of_lt room]

/-- What holds at the place of the writer is not changed by a byte that is sent. -/
theorem Uart.At.sendOne {place : WritePlace} (at' : uart.At config writer place)
    (permits : uart.txSemaphore.toNat + 1 < 2 ^ 32) : (uart.sendOne config).At config writer place := by
  have sent : (uart.sendOne config).sent.length = uart.sent.length + 1 := by
    change (uart.sent ++ [_]).length = _
    rw [length_append, length_singleton]
  have room : uart.Room config → (uart.sendOne config).Room config := by
    intro room
    unfold Uart.Room at room ⊢
    change uart.stored.length + 1 < _
    omega
  cases place with
  | looping => exact at'
  | testing nextPos => exact at'
  | downing nextPos =>
    refine ⟨at'.1, at'.2.1, at'.2.2.1, .inr fun none => ?_⟩
    have more := sendOne_permits config permits
    rw [none] at more
    cases more
  | storing => exact ⟨at'.1, at'.2.1, room at'.2.2⟩
  | halfway index => exact ⟨at'.1, at'.2.1, room at'.2.2.1, at'.2.2.2⟩
  | wrapping => exact at'
  | leaving => exact at'

theorem Uart.Held.sendOne (held : uart.Held config) (positive : 0 < config.maxOutput)
    (more : uart.sent.length < uart.stored.length) : (uart.sendOne config).Held config := by
  have room := held.room
  have byte : uart.txBuffer uart.txStart = uart.stored[uart.sent.length] := by
    rw [held.start]
    exact held.ring.next more
  have sent : (uart.sent ++ [uart.txBuffer uart.txStart]).length = uart.sent.length + 1 := by
    rw [length_append, length_singleton]
  constructor
  case fill =>
    change (uart.sent ++ [_]).length ≤ uart.stored.length
    omega
  case room =>
    change uart.stored.length < (uart.sent ++ [_]).length + config.maxOutput
    omega
  case ring =>
    change InRing uart.txBuffer config.maxOutput (uart.sent ++ [_]).length uart.stored
    rw [sent]
    exact held.ring.take
  case inOrder =>
    change uart.sent ++ [uart.txBuffer uart.txStart] <+: uart.stored
    rw [byte]
    exact concat_get_prefix held.inOrder more
  case start =>
    change (if config.maxOutput ≤ uart.txStart + 1 then 0 else uart.txStart + 1) =
      (uart.sent ++ [_]).length % config.maxOutput
    rw [sent, held.start, wrap_succ positive]
  case inside =>
    intro index within
    rcases mem_append.mp within with earlier | now
    · exact held.inside index earlier
    · obtain rfl := mem_singleton.mp now
      rw [held.start]
      exact Nat.mod_lt _ positive

section
variable (sound : uart.Sound config) (positive : 0 < config.maxOutput)
include sound positive

theorem Uart.Sound.sendOne (more : uart.sent.length < uart.stored.length)
    (permits : uart.txSemaphore.toNat + 1 < 2 ^ 32) :
    (uart.sendOne config).Sound config where
  held := sound.held.sendOne positive more
  stream := sound.stream
  free := sound.free
  place := fun writer writes => (sound.place writer writes).sendOne permits

theorem Uart.Sound.transmitLoop (rounds : Nat)
    (stops : uart.Clear config ∨ rounds ≤ uart.stored.length - uart.sent.length)
    (permits : uart.txSemaphore.toNat + rounds < 2 ^ 32) : (transmitLoop config rounds uart).Sound config := by
  induction rounds generalizing uart with
  | zero => exact sound
  | succ rounds inductionHypothesis =>
    unfold Serial.transmitLoop
    by_cases nonempty : uart.txStart ≠ uart.txEnd
    · rw [if_pos nonempty]
      have fill := sound.held.fill
      have more : uart.sent.length < uart.stored.length := by
        rcases stops with clear | few
        · have different : uart.sent.length ≠ uart.stored.length := by
            rw [sound.held.start, clear, ne_eq, sound.held.ends_eq] at nonempty
            exact nonempty
          omega
        · omega
      have one : uart.txSemaphore.toNat + 1 < 2 ^ 32 := by omega
      refine inductionHypothesis (sound.sendOne positive more one) (stops.imp_right fun few => ?_) ?_
      · change rounds ≤ uart.stored.length - (uart.sent ++ [_]).length
        rw [length_append, length_singleton]
        omega
      · rw [sendOne_permits config one]
        omega
    · rw [if_neg nonempty]
      exact sound

theorem Uart.Sound.interrupt {thre : Bool} (inTime : InTime config uart (.interrupt thre)) :
    (uart.interrupt config thre).Sound config := by
  cases thre with
  | false => exact sound
  | true =>
    refine sound.transmitLoop positive config.fifoDepth ?_ inTime.2
    cases exposed : uart.exposed config with
    | true => exact .inr (inTime.1 exposed)
    | false =>
      left
      cases writes : uart.writer with
      | none => exact sound.free writes
      | some writer =>
        have at' := sound.place writer writes
        unfold Uart.exposed at exposed
        rw [writes, Option.map_some] at exposed
        cases place : writer.place with
        | wrapping =>
          rw [place] at at' exposed
          obtain ⟨nonempty, last, _⟩ := at'
          have inRing : uart.txEnd ≠ config.maxOutput := of_decide_eq_false exposed
          unfold Uart.Clear
          rw [← Nat.sub_add_cancel nonempty, ← wrap_succ positive, ← last]
          have below := Nat.mod_lt (uart.stored.length - 1) positive
          rw [if_neg (by omega)]
        | halfway index =>
          rw [place] at at' exposed
          have slotFirst : config.slotFirst = true := Bool.not_eq_eq_eq_not.mp exposed
          obtain ⟨same, _, _, order⟩ := at'
          rw [if_pos slotFirst] at order
          exact order.1.trans same
        | looping | testing | downing | storing | leaving =>
          rw [place] at at'
          exact at'.1

end

/-- What one step can do -/
inductive UartStepCases (config : UartConfig) (uart : Uart) : UartAction → Uart → Prop
  | write (task : Nat) (buffer : List Byte) (free : uart.writer = none) :
      UartStepCases config uart (.write task buffer)
        { uart with writer := some ⟨task, buffer, 0, .looping⟩, calls := uart.calls ++ [buffer] }
  | advance (writer : Writer) (writes : uart.writer = some writer) (next : Uart)
      (advanced : uart.advance config writer = some next) : UartStepCases config uart .advance next
  | interrupt (thre : Bool) : UartStepCases config uart (.interrupt thre) (uart.interrupt config thre)

theorem uartStep_cases {next : Uart} {action : UartAction} (stepped : uartStep config uart action = some next) :
    UartStepCases config uart action next := by
  cases action with
  | write task buffer =>
    simp only [uartStep] at stepped
    split at stepped
    next free =>
      cases stepped
      exact .write task buffer free
    next => cases stepped
  | advance =>
    simp only [uartStep] at stepped
    split at stepped
    next => cases stepped
    next writer writes => exact .advance writer writes next stepped
  | interrupt thre =>
    cases stepped
    exact .interrupt thre

theorem Uart.Held.moveTo (held : uart.Held config) (place : WritePlace)
    (stream : uart.calls.flatten = uart.stored ++ writer.rest) (at' : uart.At config writer place) :
    (uart.moveTo writer place).Sound config where
  held := held
  stream := stream
  free := by
    intro none
    cases none
  place := by
    intro other same
    cases same
    cases place <;> exact at'

theorem Uart.Held.room_of_ne (held : uart.Held config)
    (different : uart.txStart ≠ (uart.stored.length + 1) % config.maxOutput) : uart.Room config := by
  have fill := held.room
  unfold Uart.Room
  by_cases full : uart.stored.length + 1 = uart.sent.length + config.maxOutput
  · rw [held.start, full, Nat.add_mod_right] at different
    exact absurd rfl different
  · omega

theorem Uart.Held.storeSlot (held : uart.Held config) (positive : 0 < config.maxOutput) (byte : Byte) :
    (uart.storeSlot (uart.stored.length % config.maxOutput) byte).Held config where
  fill := held.fill
  room := held.room
  ring := held.ring.store held.room byte
  inOrder := held.inOrder
  start := held.start
  inside := by
    intro index within
    rcases mem_append.mp within with earlier | now
    · exact held.inside index earlier
    · obtain rfl := mem_singleton.mp now
      exact Nat.mod_lt _ positive

theorem Uart.Held.storeFirst (held : uart.Held config) (positive : 0 < config.maxOutput)
    (stream : uart.calls.flatten = uart.stored ++ writer.rest) (clear : uart.Clear config)
    (more : writer.nwrite < writer.buffer.length) (room : uart.Room config) :
    (uart.storeFirst config writer).Sound config := by
  unfold Uart.storeFirst
  rw [clear]
  cases slotFirst : config.slotFirst with
  | true =>
    rw [if_pos rfl]
    refine (held.storeSlot positive writer.byte).moveTo (.halfway _) stream ⟨rfl, more, room, ?_⟩
    rw [if_pos slotFirst]
    exact ⟨clear, Function.update_self ..⟩
  | false =>
    rw [if_neg Bool.false_ne_true]
    have increased : uart.increaseEnd.Held config := held
    refine increased.moveTo (.halfway _) stream ⟨rfl, more, room, ?_⟩
    rw [if_neg (by simp [slotFirst])]
    exact congrArg (· + 1) clear

theorem Uart.Held.append {byte : Byte} (held : uart.Held config) (room : uart.Room config)
    (slot : uart.txBuffer (uart.stored.length % config.maxOutput) = byte) :
    Uart.Held config { uart with stored := uart.stored ++ [byte] } := by
  have fill := held.fill
  have length : (uart.stored ++ [byte]).length = uart.stored.length + 1 := by
    rw [length_append, length_singleton]
  unfold Uart.Room at room
  constructor
  case fill =>
    change uart.sent.length ≤ (uart.stored ++ [byte]).length
    omega
  case room =>
    change (uart.stored ++ [byte]).length < uart.sent.length + config.maxOutput
    omega
  case ring => exact held.ring.append slot
  case inOrder => exact held.inOrder.trans (prefix_append ..)
  case start => exact held.start
  case inside => exact held.inside

theorem Writer.rest_eq (more : writer.nwrite < writer.buffer.length) :
    writer.rest = writer.byte :: { writer with nwrite := writer.nwrite + 1 }.rest := by
  unfold Writer.rest Writer.byte
  rw [drop_eq_getElem_cons more, List.getD_eq_getElem?_getD, List.getElem?_eq_getElem more]
  rfl

theorem Uart.Held.storeSecond (held : uart.Held config) (positive : 0 < config.maxOutput)
    {index : Nat} (stream : uart.calls.flatten = uart.stored ++ writer.rest)
    (at' : uart.At config writer (.halfway index)) : (uart.storeSecond config writer index).Sound config := by
  obtain ⟨rfl, more, room, order⟩ := at'
  have streamed : uart.calls.flatten =
      (uart.stored ++ [writer.byte]) ++ { writer with nwrite := writer.nwrite + 1 }.rest := by
    rw [stream, Writer.rest_eq more, append_assoc]
    rfl
  have length : (uart.stored ++ [writer.byte]).length - 1 = uart.stored.length := by
    rw [length_append, length_singleton, Nat.add_sub_cancel]
  have nonempty : 0 < (uart.stored ++ [writer.byte]).length := by
    rw [length_append, length_singleton]
    exact Nat.succ_pos _
  unfold Uart.storeSecond
  cases slotFirst : config.slotFirst with
  | true =>
    rw [if_pos slotFirst] at order
    rw [if_pos rfl]
    have joined : Uart.Held config { uart.increaseEnd with stored := uart.stored ++ [writer.byte] } :=
      Uart.Held.append held room order.2
    refine joined.moveTo .wrapping streamed ⟨nonempty, ?_, more⟩
    change uart.txEnd + 1 = ((uart.stored ++ [writer.byte]).length - 1) % config.maxOutput + 1
    rw [length, order.1]
  | false =>
    rw [if_neg (by simp [slotFirst])] at order
    rw [if_neg Bool.false_ne_true]
    have joined := (held.storeSlot positive writer.byte).append room (Function.update_self ..)
    refine joined.moveTo .wrapping streamed ⟨nonempty, ?_, more⟩
    change uart.txEnd = ((uart.stored ++ [writer.byte]).length - 1) % config.maxOutput + 1
    rw [length, order]

theorem Uart.Held.wrapEnd (held : uart.Held config) (positive : 0 < config.maxOutput)
    (stream : uart.calls.flatten = uart.stored ++ writer.rest) (at' : uart.At config writer .wrapping) :
    (uart.wrapEnd config writer).Sound config := by
  obtain ⟨nonempty, last, more⟩ := at'
  have wrapped : Uart.Held config
      { uart with txEnd := if config.maxOutput ≤ uart.txEnd then 0 else uart.txEnd } := held
  refine wrapped.moveTo .looping stream ⟨?_, more⟩
  change (if config.maxOutput ≤ uart.txEnd then 0 else uart.txEnd) = uart.stored.length % config.maxOutput
  rw [last, wrap_succ positive, Nat.sub_add_cancel nonempty]

theorem Uart.Sound.advance (sound : uart.Sound config) (positive : 0 < config.maxOutput)
    (writes : uart.writer = some writer) {next : Uart} (advanced : uart.advance config writer = some next) :
    next.Sound config := by
  have held := sound.held
  have at' := sound.place writer writes
  have stream := sound.stream
  rw [writes] at stream
  change uart.calls.flatten = uart.stored ++ writer.rest at stream
  unfold Uart.advance at advanced
  split at advanced
  next place =>
    rw [place] at at'
    split at advanced
    next more =>
      cases advanced
      refine held.moveTo (.testing _) stream ⟨at'.1, more, ?_⟩
      rw [at'.1, Nat.mod_add_mod]
    next finished =>
      cases advanced
      exact held.moveTo .leaving stream ⟨at'.1, drop_eq_nil_of_le (Nat.le_of_not_lt finished)⟩
  next nextPos place =>
    rw [place] at at'
    obtain ⟨clear, more, rfl⟩ := at'
    split at advanced
    next full =>
      cases advanced
      exact held.moveTo (.downing _) stream ⟨clear, more, rfl, .inl full⟩
    next different =>
      cases advanced
      exact held.moveTo .storing stream ⟨clear, more, held.room_of_ne different⟩
  next nextPos place =>
    rw [place] at at'
    split at advanced
    next permits =>
      cases advanced
      have lowered : Uart.Held config { uart with txSemaphore := uart.txSemaphore - 1 } := held
      exact lowered.moveTo (.testing _) stream ⟨at'.1, at'.2.1, at'.2.2.1⟩
    next => cases advanced
  next place =>
    cases advanced
    rw [place] at at'
    exact held.storeFirst positive stream at'.1 at'.2.1 at'.2.2
  next index place =>
    cases advanced
    rw [place] at at'
    exact held.storeSecond positive stream at'
  next place =>
    cases advanced
    rw [place] at at'
    exact held.wrapEnd positive stream at'
  next place =>
    cases advanced
    rw [place] at at'
    rw [at'.2] at stream
    constructor
    case held => exact held
    case stream => exact stream
    case free => exact fun _ => at'.1
    case place =>
      intro other none
      cases none

/-- A step in time keeps the ring and the characters that were sent. -/
theorem Uart.Sound.step (sound : uart.Sound config) (positive : 0 < config.maxOutput) {next : Uart}
    {action : UartAction} (inTime : InTime config uart action) (stepped : uartStep config uart action = some next) :
    next.Sound config := by
  cases uartStep_cases stepped with
  | write task buffer free =>
    constructor
    case held => exact sound.held
    case stream =>
      change (uart.calls ++ [buffer]).flatten = uart.stored ++ buffer
      have stream := sound.stream
      rw [free] at stream
      rw [flatten_append, flatten_singleton, stream]
      exact congrArg (· ++ buffer) (append_nil uart.stored)
    case free =>
      intro none
      cases none
    case place =>
      intro writer same
      cases same
      exact ⟨sound.free free, Nat.zero_le _⟩
  | advance writer writes next advanced => exact sound.advance positive writes advanced
  | interrupt thre => exact sound.interrupt positive inTime

/-- Each byte that an interrupt sends leaves a permit, as long as the count has room for them. -/
theorem transmitLoop_permits (config : UartConfig) (rounds : Nat) (uart : Uart)
    (room : uart.txSemaphore.toNat + rounds < 2 ^ 32) :
    (transmitLoop config rounds uart).txSemaphore.toNat + uart.sent.length =
      uart.txSemaphore.toNat + (transmitLoop config rounds uart).sent.length := by
  induction rounds generalizing uart with
  | zero => rfl
  | succ rounds inductionHypothesis =>
    unfold transmitLoop
    by_cases nonempty : uart.txStart ≠ uart.txEnd
    · rw [if_pos nonempty]
      have one := sendOne_permits config (by omega : uart.txSemaphore.toNat + 1 < 2 ^ 32)
      have later := inductionHypothesis (uart.sendOne config) (by omega)
      change _ + (uart.sent ++ [_]).length = _ at later
      rw [one, length_append, length_singleton] at later
      omega
    · rw [if_neg nonempty]

/-- The writes of the transmit register are the bytes of the calls in their order, and all of them when no call is in
progress and the ring is empty. The accesses are inside of the ring. A writer that sleeps finds the ring full, and an
interrupt that frees a slot gives it a permit. -/
structure Transmitted (config : UartConfig) (uart : Uart) : Prop where
  inOrder : uart.sent <+: uart.calls.flatten
  complete : uart.writer = none → uart.txStart = uart.txEnd → uart.sent = uart.calls.flatten
  inside : ∀ index ∈ uart.accesses, index < config.maxOutput
  sleeping : ∀ writer nextPos, uart.writer = some writer → writer.place = .downing nextPos → uart.txSemaphore = 0 →
    (uart.txEnd + 1) % config.maxOutput = uart.txStart
  woken : ∀ thre next, InTime config uart (.interrupt thre) → uartStep config uart (.interrupt thre) = some next →
    uart.sent.length < next.sent.length → next.txSemaphore ≠ 0

/-- A sound port has sent what was written, in order. -/
theorem Uart.Sound.transmitted (sound : uart.Sound config) : Transmitted config uart := by
  have held := sound.held
  constructor
  case inOrder =>
    rw [sound.stream]
    exact held.inOrder.trans (prefix_append ..)
  case complete =>
    intro free empty
    have clear := sound.free free
    rw [held.start, clear, held.ends_eq] at empty
    rw [sound.stream, free]
    exact (held.inOrder.eq_of_length empty).trans (append_nil uart.stored).symm
  case inside => exact held.inside
  case sleeping =>
    intro writer nextPos writes place none
    have at' := sound.place writer writes
    rw [place] at at'
    obtain ⟨clear, _, same, full | permits⟩ := at'
    · rw [clear, Nat.mod_add_mod, ← same, full]
    · exact absurd none permits
  case woken =>
    intro thre next inTime stepped more
    cases stepped
    cases thre with
    | false => exact absurd more (Nat.lt_irrefl _)
    | true =>
      have permits := transmitLoop_permits config config.fifoDepth uart inTime.2
      change uart.sent.length < (Serial.transmitLoop config config.fifoDepth uart).sent.length at more
      intro none
      change (Serial.transmitLoop config config.fifoDepth uart).txSemaphore = 0 at none
      rw [none, show (0 : BitVec 32).toNat = 0 from rfl] at permits
      omega

/-- In every run whose interrupts come in time the bytes of the calls are transmitted. -/
theorem uart16550_transmits_calls (config : UartConfig) (positive : 0 < config.maxOutput) (txBuffer : Nat → Byte)
    (actions : List UartAction) (final : Uart)
    (inTime : Guarded (uartStep config) (InTime config) (uartRegister txBuffer) actions)
    (ran : run (uartStep config) (uartRegister txBuffer) actions = some final) : Transmitted config final :=
  (run_invariant_of_guarded (Uart.Sound config) (sound_uartRegister positive txBuffer) inTime ran fun sound =>
    sound.step positive).transmitted

/-- The default configuration -/
def defaultConfig : UartConfig := ⟨256, 16, true⟩

/-- Two calls one after the other, with an interrupt in the middle of each one and one at the end -/
def twoCalls : List UartAction :=
  [.write 1 [10, 20], .advance, .advance, .advance, .advance, .advance, .interrupt true, .advance, .advance,
    .advance, .advance, .advance, .advance, .advance, .write 2 [30], .advance, .advance, .advance, .interrupt true,
    .advance, .advance, .advance, .advance, .interrupt true]

theorem uart16550_transmits_calls_two :
    ∃ final, run (uartStep defaultConfig) (uartRegister fun _ => 0) twoCalls = some final ∧
      Transmitted defaultConfig final ∧ final.sent = [10, 20, 30] ∧ final.calls = [[10, 20], [30]] := by
  refine exists_final (fun uart => (uart.sent, uart.calls)) ([10, 20, 30], [[10, 20], [30]]) (by decide +kernel)
    fun final ran same => ?_
  have inTime : Guarded (uartStep defaultConfig) (InTime defaultConfig) (uartRegister fun _ => 0) twoCalls := by
    decide +kernel
  exact ⟨uart16550_transmits_calls defaultConfig (by decide) _ twoCalls final inTime ran,
    congrArg Prod.fst same, congrArg Prod.snd same⟩

/-- A call of 256 bytes whose first 255 bytes have been sent when the last one is stored. The interrupt comes between
the increment of `tx_end` to 256 and the test. -/
def interruptInWindow : List UartAction :=
  [.write 1 ((List.range 256).map (.ofNat 8))] ++
    (List.range 255).flatMap (fun _ => [.advance, .advance, .advance, .advance, .advance, .interrupt true]) ++
    [.advance, .advance, .advance, .advance, .interrupt true]

/-- The interrupt sends the last byte, and then the first 15 bytes a second time. -/
theorem uart16550_interrupt_sends_stale_bytes :
    ∃ final, run (uartStep defaultConfig) (uartRegister fun _ => 0) interruptInWindow = some final ∧
      ¬ Transmitted defaultConfig final := by
  refine exists_final (fun uart => (uart.sent.length, uart.calls.flatten.length)) (271, 256) (by decide +kernel)
    fun final ran same => ?_
  intro transmitted
  have sent : final.sent.length = 271 := congrArg Prod.fst same
  have calls : final.calls.flatten.length = 256 := congrArg Prod.snd same
  have shorter := transmitted.inOrder.length_le
  omega

end Phabos.Serial
