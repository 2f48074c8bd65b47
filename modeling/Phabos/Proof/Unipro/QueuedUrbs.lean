import Phabos.Construction.Unipro.UsbTransfer
import Phabos.Library.Counting
import Phabos.Library.Run

namespace Phabos.UsbTransfer

open Library Function List Option

/-- The response buffers of operations are allocated, each for one operation. -/
structure Heap (operations : Nat → Operation) (allocated : Nat → Bool) : Prop where
  live : ∀ op address, (operations op).responseBuffer = some address → allocated address = true
  distinct : ∀ op other address, (operations op).responseBuffer = some address →
    (operations other).responseBuffer = some address → op = other

section Responses
variable {operations : Nat → Operation} {allocated : Nat → Bool} {op address : Nat}

theorem owned_update {operation : Operation} {other held : Nat}
    (owned : (update operations op operation other).responseBuffer = some held) :
    other = op ∧ operation.responseBuffer = some held ∨ other ≠ op ∧ (operations other).responseBuffer = some held := by
  by_cases here : other = op
  · rw [here, update_self] at owned
    exact Or.inl ⟨here, owned⟩
  · rw [update_of_ne here] at owned
    exact Or.inr ⟨here, owned⟩

theorem refCount_update (response : Option Nat) (other : Nat) :
    (update operations op { operations op with responseBuffer := response } other).refCount =
      (operations other).refCount := by
  by_cases here : other = op
  · rw [here, update_self]
  · rw [update_of_ne here]

theorem Heap.alloc (heap : Heap operations allocated) (unused : allocated address = false) :
    Heap (update operations op { operations op with responseBuffer := some address }) (update allocated address true) := by
  have fresh : ∀ other, (operations other).responseBuffer ≠ some address := by
    intro other response
    have live := heap.live other address response
    rw [unused] at live
    cases live
  constructor
  · intro other held owned
    cases owned_update owned with
    | inl new =>
      injection new.2 with same
      rw [← same, update_self]
    | inr old =>
      have different : held ≠ address := by
        rintro rfl
        exact fresh other old.2
      rw [update_of_ne different]
      exact heap.live other held old.2
  · intro one other held first second
    cases owned_update first with
    | inl one_new =>
      cases owned_update second with
      | inl other_new => rw [one_new.1, other_new.1]
      | inr other_old =>
        injection one_new.2 with same
        exact absurd (same ▸ other_old.2) (fresh other)
    | inr one_old =>
      cases owned_update second with
      | inl other_new =>
        injection other_new.2 with same
        exact absurd (same ▸ one_old.2) (fresh one)
      | inr other_old => exact heap.distinct one other held one_old.2 other_old.2

theorem Heap.free (heap : Heap operations allocated) (response : (operations op).responseBuffer = some address) :
    Heap (update operations op { operations op with responseBuffer := none }) (update allocated address false) := by
  constructor
  · intro other held owned
    cases owned_update owned with
    | inl new => cases new.2
    | inr old =>
      have different : held ≠ address := by
        rintro rfl
        exact old.1 (heap.distinct other op held old.2 response)
      rw [update_of_ne different]
      exact heap.live other held old.2
  · intro one other held first second
    cases owned_update first with
    | inl one_new => cases one_new.2
    | inr one_old =>
      cases owned_update second with
      | inl other_new => cases other_new.2
      | inr other_old => exact heap.distinct one other held one_old.2 other_old.2

end Responses

/-- The response buffer that a call sends is that of its operation. -/
def Place.Owns (operations : Nat → Operation) : Place → Prop
  | .responding op address _ | .submittingResponse op address _ _ => (operations op).responseBuffer = some address
  | _ => True

/-- Each message is sent once at a time, from memory that is in use, and stays as it was when `apba_unipro_send` was
called. -/
structure Sound (m : Machine) : Prop where
  single : ∀ buffer, m.calls.countP (·.sends buffer) + m.urbs.countP (·.queued buffer) ≤ 1
  live : ∀ buffer, m.Sending buffer → m.Live buffer
  heap : Heap m.operations m.allocated
  owner : ∀ place ∈ m.calls, place.Owns m.operations
  calls : ∀ place ∈ m.calls, ∀ buffer message, place.buffer = some buffer → place.message = some message →
    m.bytes buffer message.length = message
  urbs : ∀ urb ∈ m.urbs, urb.completed = false → m.bytes urb.buffer urb.length = urb.message
  read : ∀ urb ∈ m.urbs, ∀ bytes, urb.read = some bytes → bytes = urb.message

theorem sound_gbProbe : Sound gbProbe where
  single := fun _ => Nat.zero_le 1
  live := by
    rintro buffer (⟨place, mem, _⟩ | ⟨urb, mem, _⟩)
    · cases mem
    · cases mem
  heap := by
    constructor
    · intro op address same
      cases same
    · intro op other address same
      cases same
  owner := fun _ mem => by cases mem
  calls := fun _ mem => by cases mem
  urbs := fun _ mem => by cases mem
  read := fun _ mem => by cases mem

variable {buffer : Buffer} {place : Place}

theorem Place.sends_iff : place.sends buffer = true ↔ place.buffer = some buffer :=
  decide_eq_true_iff

theorem Urb.queued_iff {urb : Urb} : urb.queued buffer = true ↔ urb.buffer = buffer ∧ urb.completed = false :=
  decide_eq_true_iff

variable {old place : Place}

section Counts
variable {m : Machine} {buffer : Buffer}

theorem sending_iff : m.Sending buffer ↔ 0 < m.calls.countP (·.sends buffer) + m.urbs.countP (·.queued buffer) := by
  rw [Nat.add_pos_iff_pos_or_pos, countP_pos_iff, countP_pos_iff]
  rfl

theorem Machine.InFlight.sending (flies : m.InFlight buffer) : m.Sending buffer := by
  cases flies with
  | inl call =>
    obtain ⟨place, mem, sends, _⟩ := call
    exact Or.inl ⟨place, mem, sends⟩
  | inr urb => exact Or.inr urb

theorem Sound.not_inFlight (sound : Sound m) {index : Nat} (here : m.calls[index]? = some place)
    (sends : place.buffer = some buffer) (before : place.message = none) : ¬ m.InFlight buffer := by
  have counted : place.sends buffer = true := Place.sends_iff.mpr sends
  have mine : 0 < m.calls.countP (·.sends buffer) :=
    countP_pos_iff.mpr ⟨place, mem_of_getElem? here, counted⟩
  have single := sound.single buffer
  rintro (⟨other, mem, also, later⟩ | queued)
  · have alone : m.calls.countP (fun place => place.sends buffer) ≤ 1 := by omega
    have same := eq_of_countP_le_one here alone counted mem also
    rw [same] at later
    exact later before
  · have another : 0 < m.urbs.countP (·.queued buffer) := countP_pos_iff.mpr queued
    omega

theorem Sound.not_sending_move (sound : Sound m) {index : Nat} (here : m.calls[index]? = some old)
    (sends : old.buffer = some buffer) (done : place.buffer = none) : ¬ (m.move index place).Sending buffer := by
  have counted := countP_set_add (·.sends buffer) place here
  have new : place.sends buffer = false := by
    rw [Place.sends, done]
    rfl
  rw [Place.sends_iff.mpr sends, new] at counted
  have single := sound.single buffer
  rw [sending_iff]
  change ¬ 0 < (m.calls.set index place).countP _ + m.urbs.countP _
  change _ + 1 = _ + 0 at counted
  omega

end Counts

section Parts
variable {m : Machine}

theorem Sound.content (sound : Sound m) {content : Buffer → Nat → UInt8}
    (same : ∀ buffer, m.InFlight buffer → content buffer = m.content buffer) : Sound { m with content := content } := by
  refine { sound with calls := ?_, urbs := ?_ }
  · intro place mem buffer message sends sent
    have flies : m.InFlight buffer :=
      Or.inl ⟨place, mem, Place.sends_iff.mpr sends, by rw [sent]; exact some_ne_none message⟩
    show (range message.length).map (content buffer) = message
    rw [same buffer flies]
    exact sound.calls place mem buffer message sends sent
  · intro urb mem pending
    have flies : m.InFlight urb.buffer := Or.inr ⟨urb, mem, Urb.queued_iff.mpr ⟨rfl, pending⟩⟩
    show (range urb.length).map (content urb.buffer) = urb.message
    rw [same urb.buffer flies]
    exact sound.urbs urb mem pending

variable {buffer : Buffer}
variable (sound : Sound m)
include sound

theorem Sound.write (quiet : ¬ m.InFlight buffer) (offset : Nat) (byte : UInt8) :
    Sound (m.write buffer offset byte) := by
  apply sound.content
  intro other flies
  apply update_of_ne
  rintro rfl
  exact quiet flies

theorem Sound.fill (quiet : ¬ m.InFlight buffer) (length : Nat) (bytes : List UInt8) :
    Sound (m.fill buffer length bytes) := by
  apply sound.content
  intro other flies
  apply update_of_ne
  rintro rfl
  exact quiet flies

theorem Sound.operations {operations : Nat → Operation} {allocated : Nat → Bool}
    (live : ∀ buffer, m.Sending buffer → { m with operations := operations, allocated := allocated }.Live buffer)
    (heap : Heap operations allocated)
    (owner : ∀ op address, m.Sending (.heap address) → (m.operations op).responseBuffer = some address → (operations op).responseBuffer = some address) :
    Sound { m with operations := operations, allocated := allocated } := by
  refine { sound with live := live, heap := heap, owner := ?_ }
  intro place mem
  have owns := sound.owner place mem
  have sending : ∀ address, place.buffer = some (.heap address) → m.Sending (.heap address) :=
    fun address sends => Or.inl ⟨place, mem, Place.sends_iff.mpr sends⟩
  cases place with
  | responding op address allocated | submittingResponse op address allocated message =>
    exact owner op address (sending address rfl) owns
  | _ => trivial

theorem Sound.begin (sends : place.buffer = some buffer) (before : place.message = none) (quiet : ¬ m.Sending buffer)
    (live : m.Live buffer) (owns : place.Owns m.operations) : Sound (m.begin place) := by
  have counted : ∀ other, (m.calls ++ [place]).countP (·.sends other) =
      m.calls.countP (·.sends other) + if place.sends other then 1 else 0 := by
    intro other
    rw [countP_append, countP_singleton]
  refine { sound with single := ?_, live := ?_, owner := ?_, calls := ?_ }
  · intro other
    show (m.calls ++ [place]).countP _ + m.urbs.countP _ ≤ 1
    rw [counted other]
    by_cases here : place.sends other = true
    · rw [if_pos here]
      obtain rfl := some.inj (sends.symm.trans (Place.sends_iff.mp here))
      rw [sending_iff] at quiet
      omega
    · rw [if_neg here]
      exact sound.single other
  · rintro other (⟨one, mem, one_sends⟩ | queued)
    · cases mem_append.mp mem with
      | inl old => exact sound.live other (Or.inl ⟨one, old, one_sends⟩)
      | inr new =>
        rw [mem_singleton.mp new, Place.sends_iff, sends] at one_sends
        obtain rfl := some.inj one_sends
        exact live
    · exact sound.live other (Or.inr queued)
  · intro one mem
    cases mem_append.mp mem with
    | inl old => exact sound.owner one old
    | inr new =>
      rw [mem_singleton.mp new]
      exact owns
  · intro one mem other message one_sends sent
    cases mem_append.mp mem with
    | inl old => exact sound.calls one old other message one_sends sent
    | inr new =>
      rw [mem_singleton.mp new, before] at sent
      cases sent

theorem Sound.move {index : Nat} (here : m.calls[index]? = some old)
    (less : ∀ buffer, place.buffer = some buffer → old.buffer = some buffer) (owns : place.Owns m.operations)
    (sent : ∀ buffer message, place.buffer = some buffer → place.message = some message → m.bytes buffer message.length = message) :
    Sound (m.move index place) := by
  have member := mem_of_getElem? here
  refine { sound with single := ?_, live := ?_, owner := ?_, calls := ?_ }
  · intro buffer
    have fewer : (m.calls.set index place).countP (·.sends buffer) ≤ m.calls.countP (·.sends buffer) := by
      apply countP_set_le here
      intro sends
      exact Place.sends_iff.mpr (less buffer (Place.sends_iff.mp sends))
    exact (Nat.add_le_add_right fewer _).trans (sound.single buffer)
  · rintro buffer (⟨one, mem, sends⟩ | queued)
    · cases mem_or_eq_of_mem_set mem with
      | inl before => exact sound.live buffer (Or.inl ⟨one, before, sends⟩)
      | inr new =>
        rw [new, Place.sends_iff] at sends
        exact sound.live buffer (Or.inl ⟨old, member, Place.sends_iff.mpr (less buffer sends)⟩)
    · exact sound.live buffer (Or.inr queued)
  · intro one mem
    cases mem_or_eq_of_mem_set mem with
    | inl before => exact sound.owner one before
    | inr new =>
      rw [new]
      exact owns
  · intro one mem buffer message sends one_sent
    cases mem_or_eq_of_mem_set mem with
    | inl before => exact sound.calls one before buffer message sends one_sent
    | inr new =>
      rw [new] at sends one_sent
      exact sent buffer message sends one_sent

theorem Sound.submit {message : List UInt8} (quiet : ¬ m.Sending buffer) (live : m.Live buffer)
    (same : m.bytes buffer message.length = message) : Sound (m.submit buffer message) := by
  have counted : ∀ other, (m.submit buffer message).urbs.countP (·.queued other) =
      m.urbs.countP (·.queued other) + if buffer = other then 1 else 0 := by
    intro other
    show (m.urbs ++ [_]).countP _ = _
    rw [countP_append, countP_singleton]
    by_cases here : buffer = other
    · rw [if_pos here, if_pos (Urb.queued_iff.mpr ⟨here, rfl⟩)]
    · rw [if_neg here, if_neg (fun queued => here (Urb.queued_iff.mp queued).1)]
  refine { sound with single := ?_, live := ?_, urbs := ?_, read := ?_ }
  · intro other
    rw [counted other]
    by_cases here : buffer = other
    · rw [if_pos here, ← here]
      rw [sending_iff] at quiet
      show m.calls.countP _ + _ ≤ 1
      omega
    · rw [if_neg here]
      exact sound.single other
  · rintro other (call | ⟨urb, mem, queued⟩)
    · exact sound.live other (Or.inl call)
    · cases mem_append.mp mem with
      | inl old => exact sound.live other (Or.inr ⟨urb, old, queued⟩)
      | inr new =>
        rw [mem_singleton.mp new, Urb.queued_iff] at queued
        obtain rfl := queued.1
        exact live
  · intro urb mem pending
    cases mem_append.mp mem with
    | inl old => exact sound.urbs urb old pending
    | inr new =>
      rw [mem_singleton.mp new]
      exact same
  · intro urb mem bytes read
    cases mem_append.mp mem with
    | inl old => exact sound.read urb old bytes read
    | inr new =>
      rw [mem_singleton.mp new] at read
      cases read

theorem Sound.urb {index : Nat} {old urb : Urb} (here : m.urbs[index]? = some old)
    (less : ∀ buffer, urb.queued buffer = true → old.queued buffer = true)
    (kept : urb.completed = false → m.bytes urb.buffer urb.length = urb.message)
    (read : ∀ bytes, urb.read = some bytes → bytes = urb.message) : Sound { m with urbs := m.urbs.set index urb } := by
  have member := mem_of_getElem? here
  refine { sound with single := ?_, live := ?_, urbs := ?_, read := ?_ }
  · intro buffer
    have fewer : (m.urbs.set index urb).countP (·.queued buffer) ≤ m.urbs.countP (·.queued buffer) :=
      countP_set_le here (less buffer)
    exact (Nat.add_le_add_left fewer _).trans (sound.single buffer)
  · rintro buffer (call | ⟨one, mem, queued⟩)
    · exact sound.live buffer (Or.inl call)
    · cases mem_or_eq_of_mem_set mem with
      | inl before => exact sound.live buffer (Or.inr ⟨one, before, queued⟩)
      | inr new =>
        rw [new] at queued
        exact sound.live buffer (Or.inr ⟨old, member, less buffer queued⟩)
  · intro one mem pending
    cases mem_or_eq_of_mem_set mem with
    | inl before => exact sound.urbs one before pending
    | inr new =>
      rw [new] at pending ⊢
      exact kept pending
  · intro one mem bytes one_read
    cases mem_or_eq_of_mem_set mem with
    | inl before => exact sound.read one before bytes one_read
    | inr new =>
      rw [new] at one_read ⊢
      exact read bytes one_read

end Parts

section Operations
variable {m : Machine} {op : Nat}

theorem Sound.not_sending (sound : Sound m) (free : ¬ m.Live buffer) : ¬ m.Sending buffer :=
  fun sending => free (sound.live buffer sending)

theorem Sound.not_inFlight_of_not_sending (quiet : ¬ m.Sending buffer) : ¬ m.InFlight buffer :=
  fun flies => quiet flies.sending

theorem Sound.set (sound : Sound m) {operation : Operation}
    (same : operation.responseBuffer = (m.operations op).responseBuffer)
    (live : m.Sending (.request op) → 0 < operation.refCount) : Sound (m.set op operation) := by
  have responses : ∀ other, (update m.operations op operation other).responseBuffer =
      (m.operations other).responseBuffer := by
    intro other
    by_cases here : other = op
    · rw [here, update_self, same]
    · rw [update_of_ne here]
  apply sound.operations
  · intro buffer sending
    have before := sound.live buffer sending
    cases buffer with
    | request other =>
      show 0 < (update m.operations op operation other).refCount
      by_cases here : other = op
      · subst here
        rw [update_self]
        exact live sending
      · rw [update_of_ne here]
        exact before
    | heap address => exact before
    | oom => trivial
  · constructor
    · intro other address response
      rw [responses other] at response
      exact sound.heap.live other address response
    · intro one other address first second
      rw [responses one] at first
      rw [responses other] at second
      exact sound.heap.distinct one other address first second
  · intro other address _ response
    rw [responses other]
    exact response

theorem Sound.create (sound : Sound m) (unused : (m.operations op).refCount = 0) (cport : Nat) (type : UInt8)
    (reqSize : Nat) : Sound (m.create op cport type reqSize) := by
  have quiet : ¬ m.Sending (.request op) := by
    apply sound.not_sending
    show ¬ 0 < (m.operations op).refCount
    omega
  apply (sound.fill (Sound.not_inFlight_of_not_sending quiet) _ _).set
  · rfl
  · intro _
    exact Nat.one_pos

theorem Sound.allocResponse (sound : Sound m) {address : Nat} (unused : m.allocated address = false)
    (quiet : ∀ buffer ∈ m.buffer op true, ¬ m.Sending buffer) (size : Nat) :
    Sound (m.allocResponse op size address) := by
  have not_sending : ¬ m.Sending (.heap address) := by
    apply sound.not_sending
    show ¬ m.allocated address = true
    rw [unused]
    exact Bool.false_ne_true
  have changed : Sound { m with
      operations := update m.operations op { m.operations op with responseBuffer := some address }
      allocated := update m.allocated address true } := by
    apply sound.operations
    · intro buffer sending
      have before := sound.live buffer sending
      cases buffer with
      | request other =>
        show 0 < (update m.operations op _ other).refCount
        rw [refCount_update]
        exact before
      | heap other =>
        show update m.allocated address true other = true
        by_cases here : other = address
        · rw [here, update_self]
        · rw [update_of_ne here]
          exact before
      | oom => trivial
    · exact sound.heap.alloc unused
    · intro other held sending response
      by_cases here : other = op
      · subst here
        refine absurd sending (quiet (.heap held) ?_)
        show (m.operations other).responseBuffer.map Buffer.heap = some (.heap held)
        rw [response]
        rfl
      · rw [update_of_ne here]
        exact response
  exact changed.fill (Sound.not_inFlight_of_not_sending not_sending) _ _

theorem Sound.freeResponse (sound : Sound m) (quiet : ∀ buffer ∈ m.buffer op true, ¬ m.Sending buffer) :
    Sound (m.freeResponse op) := by
  unfold Machine.freeResponse
  cases response : (m.operations op).responseBuffer with
  | none => exact sound
  | some address =>
    have not_sending : ¬ m.Sending (.heap address) := by
      apply quiet
      show (m.operations op).responseBuffer.map Buffer.heap = some (.heap address)
      rw [response]
      rfl
    apply sound.operations
    · intro buffer sending
      have before := sound.live buffer sending
      cases buffer with
      | request other =>
        show 0 < (update m.operations op _ other).refCount
        rw [refCount_update]
        exact before
      | heap other =>
        have different : other ≠ address := by
          rintro rfl
          exact not_sending sending
        show update m.allocated address false other = true
        rw [update_of_ne different]
        exact before
      | oom => trivial
    · exact sound.heap.free response
    · intro other held sending owned
      by_cases here : other = op
      · subst here
        obtain rfl := some.inj (response.symm.trans owned)
        exact absurd sending not_sending
      · rw [update_of_ne here]
        exact owned

theorem freeResponse_calls (m : Machine) (op : Nat) : (m.freeResponse op).calls = m.calls := by
  unfold Machine.freeResponse
  cases (m.operations op).responseBuffer with
  | none => rfl
  | some address => rfl

theorem freeResponse_urbs (m : Machine) (op : Nat) : (m.freeResponse op).urbs = m.urbs := by
  unfold Machine.freeResponse
  cases (m.operations op).responseBuffer with
  | none => rfl
  | some address => rfl

theorem unref_calls (m : Machine) (op : Nat) : (m.unref op).calls = m.calls := by
  unfold Machine.unref
  split
  · rfl
  split
  · exact freeResponse_calls m op
  · rfl

theorem Sound.unref (sound : Sound m) (may : m.MayUnref op) : Sound (m.unref op) := by
  unfold Machine.unref
  split
  case isTrue => exact sound
  case isFalse used =>
    split
    case isTrue last =>
      apply (sound.freeResponse (may last true)).set
      · rfl
      · intro sending
        unfold Machine.Sending at sending
        rw [freeResponse_calls, freeResponse_urbs] at sending
        exact absurd sending (may last false (.request op) rfl)
    case isFalse =>
      apply sound.set
      · rfl
      · intro _
        show 0 < (m.operations op).refCount - 1
        omega

theorem Sound.giveUp (sound : Sound m) (may : m.MayUnref op) :
    Sound ((m.set op { m.operations op with waiting := false }).unref op) := by
  have taken : Sound (m.set op { m.operations op with waiting := false }) := by
    apply sound.set
    · rfl
    · exact sound.live (.request op)
  apply taken.unref
  intro last response buffer mine
  have same : update m.operations op { m.operations op with waiting := false } op =
      { m.operations op with waiting := false } := update_self ..
  refine may ?_ response buffer ?_
  · change (update m.operations op _ op).refCount = 1 at last
    rw [same] at last
    exact last
  · cases response with
    | false => exact mine
    | true =>
      change (update m.operations op _ op).responseBuffer.map Buffer.heap = some buffer at mine
      rw [same] at mine
      exact mine

theorem Sound.requestId (sound : Sound m) (requestId : Nat) : Sound { m with requestId := requestId } :=
  { sound with }

theorem Sound.sendRequest (sound : Sound m) (used : (m.operations op).refCount ≠ 0)
    (quiet : ¬ m.Sending (.request op)) (needResponse : Bool) : Sound (m.sendRequest op needResponse) := by
  have still := Sound.not_inFlight_of_not_sending quiet
  unfold Machine.sendRequest
  cases needResponse with
  | true =>
    have written := ((sound.requestId m.drawId.2).write still 2 (UInt8.ofNat m.drawId.1)).write still 3
      (UInt8.ofNat (m.drawId.1 / 256))
    have counted : 0 < (update (update m.operations op { m.operations op with refCount := (m.operations op).refCount + 1 })
        op { update m.operations op { m.operations op with refCount := (m.operations op).refCount + 1 } op with
          waiting := true } op).refCount := by
      rw [update_self, update_self]
      exact Nat.succ_pos _
    refine Sound.begin ?_ rfl rfl quiet counted trivial
    apply Sound.set
    · apply Sound.set written
      · rfl
      · intro _
        exact Nat.succ_pos _
    · rfl
    · intro _
      rw [update_self] at counted
      exact counted
  | false =>
    apply Sound.begin ((sound.write still 2 0).write still 3 0) rfl rfl quiet
    · exact Nat.pos_of_ne_zero used
    · trivial

theorem Sound.sendResponse (sound : Sound m) {address : Nat} (response : (m.operations op).responseBuffer = some address)
    (quiet : ¬ m.Sending (.heap address)) (result : UInt8) (allocated : Bool) :
    Sound (m.sendResponse op result address allocated) := by
  have written := sound.write (Sound.not_inFlight_of_not_sending quiet) 5 result
  exact written.begin rfl rfl quiet (sound.heap.live op address response) response

theorem Sound.writePad (sound : Sound m) (quiet : ¬ m.InFlight buffer) : Sound (m.writePad op buffer) :=
  sound.write quiet 6 _

theorem bytes_length (m : Machine) (buffer : Buffer) (length : Nat) :
    m.bytes buffer (m.bytes buffer length).length = m.bytes buffer length := by
  unfold Machine.bytes
  rw [length_map, length_range]

theorem Sound.sendOomResponse (sound : Sound m) (quiet : ¬ m.Sending .oom) (submitted : Bool) :
    Sound (m.sendOomResponse op submitted) := by
  have still := Sound.not_inFlight_of_not_sending quiet
  have written := (((sound.write still 2 (m.content (.request op) 2)).write still 3 (m.content (.request op) 3)).write
    still 4 (typeResponseFlag ||| m.content (.request op) 4)).write still 6 (UInt8.ofNat ((m.operations op).cport &&& 0xff))
  unfold Machine.sendOomResponse
  dsimp only
  split
  · exact written.submit quiet trivial (bytes_length ..)
  · exact written

section Calls
variable {index : Nat}

theorem Sound.enter (sound : Sound m) {length : Nat} (here : m.calls[index]? = some old) (before : old.message = none)
    (sends : old.buffer = some buffer) (same : place.buffer = some buffer) (owns : place.Owns m.operations)
    (message : place.message = some ((m.writePad op buffer).bytes buffer length)) :
    Sound ((m.writePad op buffer).move index place) := by
  have quiet := sound.not_inFlight here sends before
  apply (sound.writePad quiet).move here
  · intro other other_sends
    rw [same] at other_sends
    rw [← other_sends]
    exact sends
  · exact owns
  · intro other sent other_sends other_message
    obtain rfl := some.inj (same.symm.trans other_sends)
    obtain rfl := some.inj (message.symm.trans other_message)
    exact bytes_length ..

theorem Sound.leave (sound : Sound m) {old : Place} (here : m.calls[index]? = some old) (place : Place)
    (done : place.buffer = none) (owns : place.Owns m.operations) : Sound (m.move index place) := by
  apply sound.move here
  · intro buffer sends
    rw [done] at sends
    cases sends
  · exact owns
  · intro buffer message sends
    rw [done] at sends
    cases sends

theorem Sound.queue (sound : Sound m) {message : List UInt8} (here : m.calls[index]? = some old)
    (sends : old.buffer = some buffer) (sent : old.message = some message) (done : place.buffer = none)
    (owns : place.Owns m.operations) : Sound ((m.move index place).submit buffer message) := by
  have member := mem_of_getElem? here
  apply (sound.leave here place done owns).submit
  · exact sound.not_sending_move here sends done
  · exact sound.live buffer (Or.inl ⟨old, member, Place.sends_iff.mpr sends⟩)
  · exact sound.calls old member buffer message sends sent

theorem Sound.advance (sound : Sound m) {submitted : Bool} {next : Machine} (here : m.calls[index]? = some place)
    (orderly : Orderly m (.advance index submitted)) (stepped : m.advance index submitted place = some next) :
    Sound next := by
  have owns := sound.owner place (mem_of_getElem? here)
  cases place with
  | requesting op needResponse =>
    cases stepped
    exact sound.enter here rfl rfl rfl trivial rfl
  | responding op address allocated =>
    cases stepped
    exact sound.enter here rfl rfl rfl owns rfl
  | submittingRequest op needResponse message =>
    simp only [Machine.advance] at stepped
    split at stepped
    · cases stepped
      exact sound.queue here rfl rfl rfl trivial
    split at stepped
    · cases stepped
      exact sound.leave here (.failed op) rfl trivial
    · cases stepped
      exact sound.leave here .done rfl trivial
  | submittingResponse op address allocated message =>
    simp only [Machine.advance] at stepped
    split at stepped
    · cases stepped
      exact sound.queue here rfl rfl rfl trivial
    split at stepped
    · cases stepped
      apply (sound.leave here .done rfl trivial).freeResponse
      intro buffer mine
      change (m.operations op).responseBuffer.map Buffer.heap = some buffer at mine
      change (m.operations op).responseBuffer = some address at owns
      rw [owns] at mine
      obtain rfl := some.inj mine
      exact sound.not_sending_move here rfl rfl
    · cases stepped
      exact sound.leave here .done rfl trivial
  | failed op =>
    have may : m.MayUnref op := by
      simp only [Orderly, here] at orderly
      exact orderly
    have still : ((m.set op { m.operations op with waiting := false }).unref op).calls[index]? = some (.failed op) := by
      rw [unref_calls]
      exact here
    cases stepped
    exact (sound.giveUp may).leave still .done rfl trivial
  | responded op =>
    have marked : Sound (m.set op { m.operations op with hasResponded := true }) := by
      apply sound.set
      · rfl
      · exact sound.live (.request op)
    cases stepped
    exact marked.leave here .done rfl trivial
  | done => cases stepped

end Calls

/-- An orderly step keeps each queued message in a live buffer of its own. -/
theorem Sound.step (sound : Sound m) {action : Action} {next : Machine} (orderly : Orderly m action)
    (stepped : UsbTransfer.step m action = some next) : Sound next := by
  cases action with
  | create op cport type reqSize =>
    simp only [UsbTransfer.step] at stepped
    split at stepped
    case isTrue unused =>
      cases stepped
      exact sound.create unused cport type reqSize
    case isFalse => cases stepped
  | write op response offset byte =>
    simp only [UsbTransfer.step] at stepped
    split at stepped
    case isTrue => cases stepped
    case isFalse =>
      obtain ⟨buffer, mine, rfl⟩ := map_eq_some_iff.mp stepped
      exact sound.write (orderly buffer mine).1 _ byte
  | allocResponse op size address =>
    simp only [UsbTransfer.step] at stepped
    split at stepped
    case isTrue => cases stepped
    case isFalse free =>
      cases stepped
      exact sound.allocResponse (Bool.eq_false_iff.mpr (not_or.mp free).2) orderly.1 size
  | sendRequest op needResponse =>
    simp only [UsbTransfer.step] at stepped
    split at stepped
    case isTrue => cases stepped
    case isFalse used =>
      cases stepped
      exact sound.sendRequest used orderly needResponse
  | sendResponse op result malloc submitted =>
    simp only [UsbTransfer.step] at stepped
    simp only [Orderly] at orderly
    split at stepped
    case isTrue => cases stepped
    split at stepped
    case isTrue =>
      cases stepped
      exact sound
    cases response : (m.operations op).responseBuffer with
    | some address =>
      rw [response] at stepped orderly
      cases stepped
      exact sound.sendResponse response orderly result false
    | none =>
      rw [response] at stepped orderly
      cases malloc with
      | none =>
        cases stepped
        exact sound.sendOomResponse orderly submitted
      | some address =>
        dsimp only at stepped
        split at stepped
        case isTrue => cases stepped
        case isFalse free =>
          cases stepped
          have quiet : ∀ buffer ∈ m.buffer op true, ¬ m.Sending buffer := by
            intro buffer mine
            change (m.operations op).responseBuffer.map Buffer.heap = some buffer at mine
            rw [response] at mine
            cases mine
          have unused := Bool.eq_false_iff.mpr free
          apply (sound.allocResponse unused quiet 0).sendResponse
          · show (update m.operations op _ op).responseBuffer = some address
            rw [update_self]
          · apply sound.not_sending
            show ¬ m.allocated address = true
            exact free
  | ref op =>
    simp only [UsbTransfer.step] at stepped
    split at stepped
    case isTrue => cases stepped
    case isFalse =>
      cases stepped
      apply sound.set
      · rfl
      · intro _
        exact Nat.succ_pos _
  | destroy op =>
    cases stepped
    exact sound.unref orderly
  | timeout op =>
    simp only [UsbTransfer.step] at stepped
    split at stepped
    case isTrue =>
      cases stepped
      exact sound.giveUp orderly
    case isFalse => cases stepped
  | advance index submitted =>
    obtain ⟨place, here, stepped⟩ := bind_eq_some_iff.mp stepped
    exact sound.advance here orderly stepped
  | read index =>
    obtain ⟨urb, here, stepped⟩ := bind_eq_some_iff.mp stepped
    split at stepped
    case isTrue => cases stepped
    case isFalse pending =>
      cases stepped
      have kept := sound.urbs urb (mem_of_getElem? here) (Bool.eq_false_iff.mpr pending)
      apply sound.urb here
      · exact fun _ queued => queued
      · exact fun _ => kept
      · intro bytes same
        obtain rfl := some.inj same
        exact kept
  | complete index =>
    obtain ⟨urb, here, stepped⟩ := bind_eq_some_iff.mp stepped
    split at stepped
    case isTrue => cases stepped
    case isFalse =>
      cases stepped
      apply sound.urb here
      · intro buffer queued
        have pending := (Urb.queued_iff.mp queued).2
        cases pending
      · intro pending
        cases pending
      · exact sound.read urb (mem_of_getElem? here)

end Operations

end Phabos.UsbTransfer
