import Mathlib.Data.List.Infix
import Phabos.Library.Ring
import Phabos.Library.Run
import Phabos.Construction.Serial.Tty

namespace Phabos.Serial

open Library List

/-- What one step can do -/
inductive Step (maxInput : Nat) (tty : Tty) : Action → Tty → Prop
  | push (c : Byte) : Step maxInput tty (.push c) (tty.push maxInput c)
  | read (task len : Nat) (free : tty.reader = none) :
      Step maxInput tty (.read task len) { tty with reader := some ⟨task, len, [], .waiting⟩ }
  | down (reader : Reader) (reads : tty.reader = some reader)
      (place : reader.place = .waiting ∨ reader.place = .testing ∧ reader.buffer.length < reader.len)
      (permits : 0 < tty.rxSemaphore) : Step maxInput tty .advance (tty.down reader)
  | copy (reader : Reader) (reads : tty.reader = some reader) (place : reader.place = .copying) :
      Step maxInput tty .advance (tty.copy reader)
  | wrap (reader : Reader) (reads : tty.reader = some reader) (place : reader.place = .wrapping) :
      Step maxInput tty .advance (tty.wrap maxInput reader)
  | finish (reader : Reader) (reads : tty.reader = some reader) (place : reader.place = .testing) :
      Step maxInput tty .advance (tty.finish reader)

variable {maxInput : Nat}

theorem step_cases {tty next : Tty} {action : Action}
    (stepped : ttyStep maxInput tty action = some next) : Step maxInput tty action next := by
  cases action with
  | push c =>
    cases stepped
    exact .push c
  | read task len =>
    simp only [ttyStep] at stepped
    split at stepped
    next free =>
      cases stepped
      exact .read task len free
    next => cases stepped
  | advance =>
    simp only [ttyStep] at stepped
    split at stepped
    next => cases stepped
    next reader reads =>
      unfold Tty.advance at stepped
      split at stepped
      next place =>
        split at stepped
        next permits =>
          cases stepped
          exact .down reader reads (.inl place) permits
        next => cases stepped
      next place =>
        cases stepped
        exact .copy reader reads place
      next place =>
        cases stepped
        exact .wrap reader reads place
      next place =>
        split at stepped
        next more =>
          cases stepped
          exact .down reader reads (.inr ⟨place, more.1⟩) more.2
        next =>
          cases stepped
          exact .finish reader reads place

/-- The buffer of a reader fits its length at each place. -/
def Reader.Fits (reader : Reader) : Prop :=
  match reader.place with
  | .waiting => reader.buffer = [] ∧ 0 < reader.len
  | .copying => reader.buffer.length < reader.len
  | .wrapping | .testing => 0 < reader.buffer.length ∧ reader.buffer.length ≤ reader.len

/-- `rx_start` is the slot of the next character to copy. Between a copy and the test it is one past the slot of the
last one. -/
def StartAt (maxInput : Nat) (reader : Option Reader) (rxStart copied : Nat) : Prop :=
  match reader.map Reader.place with
  | some .wrapping => 0 < copied ∧ rxStart = (copied - 1) % maxInput + 1
  | _ => rxStart = copied % maxInput

/-- The bytes in the buffer of the current read -/
def Tty.inHand (tty : Tty) : List Byte := (tty.reader.map Reader.buffer).getD []

/-- A character was left out exactly if the ring was full of unread characters. -/
def Judged (maxInput : Nat) (arrivals : List Arrival) (accepted : List Byte) : Prop :=
  (∀ arrival ∈ arrivals, arrival.accepted = decide (arrival.unread ≠ maxInput)) ∧
    accepted = (arrivals.filter Arrival.accepted).map Arrival.char

structure Sound (maxInput : Nat) (tty : Tty) : Prop where
  counted : tty.rxSemaphore + tty.copied.length + tty.copying.toNat = tty.accepted.length
  room : tty.accepted.length ≤ tty.copied.length + maxInput
  ring : InRing tty.rxBuffer maxInput tty.copied.length tty.accepted
  inOrder : tty.copied <+: tty.accepted
  start : StartAt maxInput tty.reader tty.rxStart tty.copied.length
  last : tty.rxEnd = tty.accepted.length % maxInput
  copies : tty.returns.flatMap Prod.snd ++ tty.inHand = tty.copied
  returned : ∀ result ∈ tty.returns, 0 < result.2.length ∧ result.2.length ≤ result.1
  fits : ∀ reader, tty.reader = some reader → reader.Fits
  judged : Judged maxInput tty.arrivals tty.accepted

theorem sound_ttyRegister (maxInput : Nat) (rxBuffer : Nat → Byte) : Sound maxInput (ttyRegister rxBuffer) where
  counted := rfl
  room := Nat.zero_le _
  ring := inRing_nil _ _ _
  inOrder := prefix_refl _
  start := (Nat.zero_mod _).symm
  last := (Nat.zero_mod _).symm
  copies := rfl
  returned := by
    intro result within
    cases within
  fits := by
    intro reader reads
    cases reads
  judged := by
    refine ⟨?_, rfl⟩
    intro arrival within
    cases within

theorem Judged.append {maxInput unread : Nat} {arrivals : List Arrival} {accepted : List Byte} {c : Byte}
    (judged : Judged maxInput arrivals accepted) (room : unread ≠ maxInput) :
    Judged maxInput (arrivals ++ [⟨c, unread, true⟩]) (accepted ++ [c]) := by
  refine ⟨?_, ?_⟩
  · intro arrival within
    rcases mem_append.mp within with earlier | now
    · exact judged.1 arrival earlier
    · obtain rfl := mem_singleton.mp now
      exact (decide_eq_true room).symm
  · rw [filter_append, map_append, ← judged.2]
    rfl

theorem Judged.drop {arrivals : List Arrival} {accepted : List Byte} {c : Byte}
    (judged : Judged maxInput arrivals accepted) :
    Judged maxInput (arrivals ++ [⟨c, maxInput, false⟩]) accepted := by
  refine ⟨?_, ?_⟩
  · intro arrival within
    rcases mem_append.mp within with earlier | now
    · exact judged.1 arrival earlier
    · obtain rfl := mem_singleton.mp now
      exact (decide_eq_false (not_not_intro rfl)).symm
  · rw [filter_append, map_append, ← judged.2]
    exact (append_nil accepted).symm

variable {tty : Tty}

theorem Sound.unread_eq (sound : Sound maxInput tty) :
    tty.unread = tty.rxSemaphore + tty.copying.toNat := by
  have counted := sound.counted
  unfold Tty.unread
  omega

theorem Sound.push (sound : Sound maxInput tty) {c : Byte}
    (ordinary : ¬ (tty.copying = true ∧ tty.unread = maxInput)) : Sound maxInput (tty.push maxInput c) := by
  have unread := sound.unread_eq
  have counted := sound.counted
  have room := sound.room
  have length : tty.unread + tty.copied.length = tty.accepted.length := by
    omega
  unfold Tty.push
  by_cases full : tty.rxSemaphore = maxInput
  · rw [if_pos full]
    have here : tty.unread = maxInput := by omega
    exact { sound with judged := here ▸ sound.judged.drop }
  · rw [if_neg full]
    have notFull : tty.unread ≠ maxInput := by
      intro same
      cases copying : tty.copying with
      | true => exact ordinary ⟨copying, same⟩
      | false =>
        rw [copying] at unread
        exact full (unread.symm.trans same)
    constructor
    case counted =>
      change tty.rxSemaphore + 1 + tty.copied.length + tty.copying.toNat = (tty.accepted ++ [c]).length
      rw [length_append, length_singleton]
      omega
    case room =>
      change (tty.accepted ++ [c]).length ≤ tty.copied.length + maxInput
      rw [length_append, length_singleton]
      omega
    case ring =>
      change InRing (Function.update tty.rxBuffer tty.rxEnd c) maxInput tty.copied.length (tty.accepted ++ [c])
      rw [sound.last]
      exact (sound.ring.store (by omega) c).append (Function.update_self ..)
    case inOrder => exact sound.inOrder.trans (prefix_append ..)
    case start => exact sound.start
    case last =>
      change (tty.rxEnd + 1) % maxInput = (tty.accepted ++ [c]).length % maxInput
      rw [sound.last, Nat.mod_add_mod, length_append, length_singleton]
    case copies => exact sound.copies
    case returned => exact sound.returned
    case fits => exact sound.fits
    case judged => exact sound.judged.append notFull

theorem Sound.read (sound : Sound maxInput tty) (free : tty.reader = none) (task : Nat) {len : Nat} (asks : 0 < len) :
    Sound maxInput { tty with reader := some ⟨task, len, [], .waiting⟩ } := by
  have notCopying : tty.copying = false := by
    unfold Tty.copying
    rw [free]
    rfl
  have counted := sound.counted
  have start := sound.start
  have copies := sound.copies
  rw [notCopying] at counted
  rw [free] at start
  unfold Tty.inHand at copies
  rw [free] at copies
  constructor
  case counted => exact counted
  case room => exact sound.room
  case ring => exact sound.ring
  case inOrder => exact sound.inOrder
  case start => exact start
  case last => exact sound.last
  case copies => exact copies
  case returned => exact sound.returned
  case fits =>
    intro reader reads
    cases reads
    exact ⟨rfl, asks⟩
  case judged => exact sound.judged

/-- The invariant at a known reader -/
structure Sound.Here (maxInput : Nat) (tty : Tty) (reader : Reader) : Prop where
  counted : tty.rxSemaphore + tty.copied.length + (decide (reader.place = .copying)).toNat = tty.accepted.length
  start : StartAt maxInput (some reader) tty.rxStart tty.copied.length
  copies : tty.returns.flatMap Prod.snd ++ reader.buffer = tty.copied
  fits : reader.Fits

variable {reader : Reader}

section
variable (sound : Sound maxInput tty) (reads : tty.reader = some reader)
include sound reads

theorem Sound.here : Sound.Here maxInput tty reader := by
  have counted := sound.counted
  have start := sound.start
  have copies := sound.copies
  unfold Tty.copying at counted
  unfold Tty.inHand at copies
  rw [reads] at counted start copies
  exact ⟨counted, start, copies, sound.fits reader reads⟩

theorem Sound.down (place : reader.place = .waiting ∨ reader.place = .testing ∧ reader.buffer.length < reader.len)
    (permits : 0 < tty.rxSemaphore) : Sound maxInput (tty.down reader) := by
  obtain ⟨counted, start, copies, fits⟩ := sound.here reads
  have notCopying : reader.place ≠ .copying := by
    rcases place with waiting | testing
    · rw [waiting]
      decide
    · rw [testing.1]
      decide
  rw [decide_eq_false notCopying] at counted
  constructor
  case counted =>
    change tty.rxSemaphore - 1 + tty.copied.length + 1 = tty.accepted.length
    change tty.rxSemaphore + tty.copied.length + 0 = tty.accepted.length at counted
    omega
  case room => exact sound.room
  case ring => exact sound.ring
  case inOrder => exact sound.inOrder
  case start =>
    change tty.rxStart = tty.copied.length % maxInput
    unfold StartAt at start
    rcases place with waiting | testing
    · rw [Option.map_some, waiting] at start
      exact start
    · rw [Option.map_some, testing.1] at start
      exact start
  case last => exact sound.last
  case copies => exact copies
  case returned => exact sound.returned
  case fits =>
    intro other same
    cases same
    change reader.buffer.length < reader.len
    unfold Reader.Fits at fits
    rcases place with waiting | testing
    · rw [waiting] at fits
      rw [fits.1]
      exact fits.2
    · exact testing.2
  case judged => exact sound.judged

theorem Sound.copy (place : reader.place = .copying) : Sound maxInput (tty.copy reader) := by
  obtain ⟨counted, start, copies, fits⟩ := sound.here reads
  rw [decide_eq_true place] at counted
  change tty.rxSemaphore + tty.copied.length + 1 = tty.accepted.length at counted
  unfold StartAt at start
  rw [Option.map_some, place] at start
  change tty.rxStart = tty.copied.length % maxInput at start
  have more : tty.copied.length < tty.accepted.length := by omega
  have char : tty.rxBuffer tty.rxStart = tty.accepted[tty.copied.length] := by
    rw [start]
    exact sound.ring.next more
  have copied : (tty.copied ++ [tty.rxBuffer tty.rxStart]).length = tty.copied.length + 1 := by
    rw [length_append, length_singleton]
  constructor
  case counted =>
    change tty.rxSemaphore + (tty.copied ++ [_]).length + 0 = tty.accepted.length
    omega
  case room =>
    change tty.accepted.length ≤ (tty.copied ++ [_]).length + maxInput
    have room := sound.room
    omega
  case ring =>
    change InRing tty.rxBuffer maxInput (tty.copied ++ [_]).length tty.accepted
    rw [copied]
    exact sound.ring.take
  case inOrder =>
    change tty.copied ++ [tty.rxBuffer tty.rxStart] <+: tty.accepted
    rw [char]
    exact concat_get_prefix sound.inOrder more
  case start =>
    change 0 < (tty.copied ++ [_]).length ∧ tty.rxStart + 1 = ((tty.copied ++ [_]).length - 1) % maxInput + 1
    rw [copied, start]
    exact ⟨Nat.succ_pos _, rfl⟩
  case last => exact sound.last
  case copies =>
    change tty.returns.flatMap Prod.snd ++ (reader.buffer ++ [tty.rxBuffer tty.rxStart]) =
      tty.copied ++ [tty.rxBuffer tty.rxStart]
    rw [← append_assoc]
    exact congrArg (· ++ [tty.rxBuffer tty.rxStart]) copies
  case returned => exact sound.returned
  case fits =>
    intro other same
    cases same
    change 0 < (reader.buffer ++ [_]).length ∧ (reader.buffer ++ [_]).length ≤ reader.len
    unfold Reader.Fits at fits
    rw [place] at fits
    rw [length_append, length_singleton]
    exact ⟨Nat.succ_pos _, fits⟩
  case judged => exact sound.judged

end

theorem Sound.wrap (sound : Sound maxInput tty) (positive : 0 < maxInput)
    (reads : tty.reader = some reader) (place : reader.place = .wrapping) :
    Sound maxInput (tty.wrap maxInput reader) := by
  obtain ⟨counted, start, copies, fits⟩ := sound.here reads
  rw [place] at counted
  unfold StartAt at start
  rw [Option.map_some, place] at start
  change 0 < tty.copied.length ∧ tty.rxStart = (tty.copied.length - 1) % maxInput + 1 at start
  constructor
  case counted => exact counted
  case room => exact sound.room
  case ring => exact sound.ring
  case inOrder => exact sound.inOrder
  case start =>
    change (if maxInput ≤ tty.rxStart then 0 else tty.rxStart) = tty.copied.length % maxInput
    rw [start.2, wrap_succ positive, Nat.sub_add_cancel start.1]
  case last => exact sound.last
  case copies => exact copies
  case returned => exact sound.returned
  case fits =>
    intro other same
    cases same
    unfold Reader.Fits at fits
    rw [place] at fits
    exact fits
  case judged => exact sound.judged

theorem Sound.finish (sound : Sound maxInput tty)
    (reads : tty.reader = some reader) (place : reader.place = .testing) : Sound maxInput (tty.finish reader) := by
  obtain ⟨counted, start, copies, fits⟩ := sound.here reads
  rw [place] at counted
  unfold StartAt at start
  rw [Option.map_some, place] at start
  unfold Reader.Fits at fits
  rw [place] at fits
  constructor
  case counted => exact counted
  case room => exact sound.room
  case ring => exact sound.ring
  case inOrder => exact sound.inOrder
  case start => exact start
  case last => exact sound.last
  case copies =>
    change (tty.returns ++ [(reader.len, reader.buffer)]).flatMap Prod.snd ++ [] = tty.copied
    rw [flatMap_append, append_nil]
    simpa using copies
  case returned =>
    intro result within
    rcases mem_append.mp within with earlier | now
    · exact sound.returned result earlier
    · obtain rfl := mem_singleton.mp now
      exact fits
  case fits =>
    intro other same
    cases same
  case judged => exact sound.judged

/-- An ordinary step keeps the bytes of the ring in order. -/
theorem Sound.step (positive : 0 < maxInput) {tty next : Tty} {action : Action}
    (sound : Sound maxInput tty) (ordinary : Ordinary maxInput tty action)
    (stepped : ttyStep maxInput tty action = some next) : Sound maxInput next := by
  cases step_cases stepped with
  | push c => exact sound.push ordinary
  | read task len free => exact sound.read free task ordinary
  | down reader reads place permits => exact sound.down reads place permits
  | copy reader reads place => exact sound.copy reads place
  | wrap reader reads place => exact sound.wrap positive reads place
  | finish reader reads place => exact sound.finish reads place

/-- The bytes of the reads are a prefix of the characters that were pushed, but for those that came while the ring was
full of unread ones. An accepted character stays in its slot until it is copied, and a read keeps to its length. -/
structure FifoKept (maxInput : Nat) (tty : Tty) : Prop where
  inOrder : tty.returns.flatMap Prod.snd <+: (tty.arrivals.filter Arrival.accepted).map Arrival.char
  leftOut : ∀ arrival ∈ tty.arrivals, arrival.accepted = decide (arrival.unread ≠ maxInput)
  accepted : tty.accepted = (tty.arrivals.filter Arrival.accepted).map Arrival.char
  copied : tty.copied = tty.returns.flatMap Prod.snd ++ tty.inHand
  kept : InRing tty.rxBuffer maxInput tty.copied.length tty.accepted
  returned : ∀ result ∈ tty.returns, 0 < result.2.length ∧ result.2.length ≤ result.1
  stored : tty.reader.all fun reader => reader.buffer.length ≤ reader.len

theorem Reader.Fits.stored (fits : reader.Fits) : reader.buffer.length ≤ reader.len := by
  unfold Reader.Fits at fits
  split at fits
  next => simp [fits.1]
  next => exact Nat.le_of_lt fits
  next => exact fits.2
  next => exact fits.2

/-- A sound terminal has kept the order of its input. -/
theorem Sound.fifoKept (sound : Sound maxInput tty) : FifoKept maxInput tty where
  inOrder := by
    rw [← sound.judged.2]
    refine List.IsPrefix.trans ⟨tty.inHand, sound.copies⟩ sound.inOrder
  leftOut := sound.judged.1
  accepted := sound.judged.2
  copied := sound.copies.symm
  kept := sound.ring
  returned := sound.returned
  stored := by
    cases reads : tty.reader with
    | none => rfl
    | some reader => exact decide_eq_true (sound.fits reader reads).stored

/-- Every ordinary run of pushes and reads keeps the characters in order, each one until it is read. -/
theorem tty_input_fifo_kept {maxInput : Nat} (positive : 0 < maxInput) (rxBuffer : Nat → Byte) (actions : List Action)
    (final : Tty) (ordinary : Guarded (ttyStep maxInput) (Ordinary maxInput) (ttyRegister rxBuffer) actions)
    (ran : run (ttyStep maxInput) (ttyRegister rxBuffer) actions = some final) : FifoKept maxInput final :=
  (run_invariant_of_guarded (Sound maxInput) (sound_ttyRegister maxInput rxBuffer) ordinary ran fun sound =>
    sound.step positive).fifoKept

/-- Two characters come before a read, one between its two copies, and one more is left out. -/
def readOfTwo : List Action :=
  [.push 10, .push 20, .push 30, .read 1 2, .advance, .advance, .push 40, .advance, .advance, .advance, .advance,
    .advance]

theorem tty_input_fifo_kept_two :
    ∃ final, run (ttyStep 2) (ttyRegister fun _ => 0) readOfTwo = some final ∧ FifoKept 2 final ∧
      final.returns = [(2, [10, 20])] ∧ final.accepted = [10, 20, 40] := by
  refine exists_final (fun tty => (tty.returns, tty.accepted)) ([(2, [10, 20])], [10, 20, 40]) (by decide +kernel)
    fun final ran same => ?_
  have ordinary : Guarded (ttyStep 2) (Ordinary 2) (ttyRegister fun _ => 0) readOfTwo := by
    decide +kernel
  exact ⟨tty_input_fifo_kept (by decide) _ readOfTwo final ordinary ran, congrArg Prod.fst same,
    congrArg Prod.snd same⟩

/-- The ring is full, and a character comes between the `semaphore_down` of a read and its copy. -/
def pushIntoWindow : List Action :=
  (List.range 256).map (fun char => .push (.ofNat 8 char)) ++
    [.read 1 1, .advance, .push 255, .advance, .advance, .advance]

/-- A read of no bytes -/
def emptyRead : List Action := [.push 10, .read 1 0, .advance, .advance, .advance, .advance]

/-- In the first run the character 255 overwrites the character 0, which has not been read, and the read returns it.
In the second run a read of no bytes stores one. -/
theorem tty_input_fifo_overwrites :
    (∃ final, run (ttyStep 256) (ttyRegister fun _ => 0) pushIntoWindow = some final ∧
      final.returns = [(1, [255])] ∧ ¬ FifoKept 256 final) ∧
    ∃ final, run (ttyStep 256) (ttyRegister fun _ => 0) emptyRead = some final ∧
      final.returns = [(0, [10])] ∧ ¬ FifoKept 256 final := by
  refine ⟨?_, ?_⟩
  · refine exists_final (fun tty => (tty.returns, tty.accepted.head?)) ([(1, [255])], some 0) (by decide +kernel)
      fun final ran same => ?_
    have returns : final.returns = [(1, [255])] := congrArg Prod.fst same
    have head : final.accepted.head? = some 0 := congrArg Prod.snd same
    refine ⟨returns, fun kept => ?_⟩
    have inOrder := kept.inOrder
    rw [returns, ← kept.accepted] at inOrder
    obtain ⟨rest, split⟩ := inOrder
    rw [← split] at head
    exact absurd (Option.some.inj head) (by decide)
  · refine exists_final Tty.returns [(0, [10])] (by decide +kernel) fun final ran returns => ?_
    refine ⟨returns, fun kept => ?_⟩
    have returned := kept.returned (0, [10]) (returns ▸ List.mem_singleton_self _)
    exact absurd returned.2 (by decide)

end Phabos.Serial
