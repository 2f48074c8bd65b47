import Phabos.Construction.Greybus.Dispatch
import Phabos.Library.Run
import Phabos.Proof.Greybus.DriverRegistration
import Phabos.Proof.Greybus.RequestDiscipline

namespace Phabos.Greybus
open Library List Option

section Search
variable {handlers : List GbOperationHandler} {type : BitVec 8} {opHandler : GbOperationHandler}

theorem searchHandler_sound {fuel : ℕ} {l r : Int} (found : searchHandler handlers type fuel l r = some opHandler) :
    opHandler ∈ handlers ∧ opHandler.type = type := by
  induction fuel generalizing l r with
  | zero => cases found
  | succ fuel inductionHypothesis =>
    unfold searchHandler at found
    split at found
    · obtain ⟨middle, there, found⟩ := bind_eq_some_iff.mp found
      split at found
      · exact inductionHypothesis found
      split at found
      · exact inductionHypothesis found
      · rename_i notBelow notAbove
        obtain rfl := some.inj found
        refine ⟨mem_of_getElem? there, ?_⟩
        rw [BitVec.lt_def] at notBelow notAbove
        exact BitVec.eq_of_toNat_eq (by omega)
    · cases found

theorem searchHandler_complete (sorted : handlers.Pairwise fun first second => first.type < second.type) {fuel index : ℕ}
    (there : handlers[index]? = some opHandler) {l r : Int} (nonneg : 0 ≤ l) (left : l ≤ index) (right : index ≤ r)
    (inside : r < handlers.length) (enough : r - l + 1 < fuel) :
    searchHandler handlers opHandler.type fuel l r = some opHandler := by
  induction fuel generalizing l r with
  | zero => omega
  | succ fuel inductionHypothesis =>
    obtain ⟨inRange, value⟩ := List.getElem?_eq_some_iff.mp there
    have order {first second : ℕ} (less : first < second) (bound : second < handlers.length) :
        handlers[first].type < handlers[second].type :=
      pairwise_iff_getElem.mp sorted first second (less.trans bound) bound less
    unfold searchHandler
    rw [if_pos (left.trans right)]
    dsimp only
    rw [Int.tdiv_eq_ediv_of_nonneg (by omega)]
    have bound : ((l + r) / 2).toNat < handlers.length := by omega
    rw [List.getElem?_eq_getElem bound, bind_some]
    obtain less | same | more := lt_trichotomy ((l + r) / 2).toNat index
    · have below := order less inRange
      rw [value] at below
      rw [if_pos below]
      exact inductionHypothesis (by omega) (by omega) right inside (by omega)
    · simp only [same, value]
      rw [if_neg (BitVec.lt_irrefl _), if_neg (BitVec.lt_irrefl _)]
    · have above := order more bound
      rw [value] at above
      rw [if_neg (BitVec.lt_asymm above), if_pos above]
      exact inductionHypothesis nonneg left (by omega) (by omega) (by omega)

theorem findOperationHandler_iff (sorted : handlers.Pairwise fun first second => first.type < second.type)
    (nonzero : ∀ opHandler ∈ handlers, opHandler.type ≠ GB_INVALID_TYPE) :
    findOperationHandler (some handlers) type = some opHandler ↔ opHandler ∈ handlers ∧ opHandler.type = type := by
  unfold findOperationHandler
  dsimp only
  constructor
  · intro found
    split at found
    · cases found
    · exact searchHandler_sound found
  · rintro ⟨there, rfl⟩
    rw [if_neg (nonzero opHandler there)]
    obtain ⟨index, found⟩ := List.getElem?_of_mem there
    have inRange := (List.getElem?_eq_some_iff.mp found).1
    exact searchHandler_complete sorted found (Int.le_refl 0) (by omega) (by omega) (by omega) (by omega)

end Search

namespace Dispatch
open Registration (Qsort gbCompareHandlers gbRegisterDriver)

/-- The types of the handlers of a driver are not zero and not the same. -/
structure Distinct (handlers : List GbOperationHandler) : Prop where
  apart : handlers.Pairwise fun first second => first.type ≠ second.type
  nonzero : ∀ opHandler ∈ handlers, opHandler.type ≠ GB_INVALID_TYPE

section Table
variable {qsort : Qsort gbCompareHandlers} {handlers : List GbOperationHandler}

theorem Distinct.sorted (distinct : Distinct handlers) :
    (qsort.sort handlers).Pairwise fun first second => first.type < second.type := by
  have apart : (qsort.sort handlers).Pairwise fun first second => first.type ≠ second.type :=
    (qsort.perm handlers).symm.pairwise distinct.apart Ne.symm
  refine (apart.and (qsort.sorted handlers)).imp ?_
  rintro first second ⟨differs, le⟩
  unfold gbCompareHandlers at le
  rw [BitVec.lt_def]
  have unequal : first.type.toNat ≠ second.type.toNat := fun same => differs (BitVec.eq_of_toNat_eq same)
  omega

theorem Distinct.find_iff (distinct : Distinct handlers) {type : BitVec 8} {opHandler : GbOperationHandler} :
    findOperationHandler (some (qsort.sort handlers)) type = some opHandler ↔
      opHandler ∈ handlers ∧ opHandler.type = type := by
  have same := (qsort.perm handlers).mem_iff (a := opHandler)
  rw [findOperationHandler_iff distinct.sorted fun other there =>
    distinct.nonzero other ((qsort.perm handlers).mem_iff.mp there), same]

variable {outcomes : Registration.Outcomes} {before after : Registration.Bus} {cportid : BitVec 32} {driver : ℕ}

end Table

section Dispatched
variable (handlers : List GbOperationHandler)

/-- The sizes with which a message is not dropped -/
def Sized (data : List UInt8) : Prop :=
  hdrSize ≤ data.length ∧ hdrSize ≤ le16 data 0 ∧ le16 data 0 ≤ data.length

/-- A fast handler is registered for the type of the message. -/
def Fast (data : List UInt8) : Prop :=
  ∃ opHandler ∈ handlers, opHandler.type = hdrType data ∧ opHandler.hasFastHandler = true

/-- The answer to a request of a type without a handler: an invalid operation, or no memory for the response -/
def Refused (data : List UInt8) (session : Session) : Prop :=
  ∃ result retval, (result = GB_OP_INVALID ∨ result = GB_OP_NO_MEMORY) ∧
    session.sent =
      [(⟨BitVec.ofNat 16 hdrSize, (hdrOf data).id, TYPE_RESPONSE_FLAG ||| hdrType data, result⟩, retval)]

/-- The answer to a request comes from one run of the handler on the request. -/
def Served (opHandler : GbOperationHandler) (data : List UInt8) (session : Session) : Prop :=
  ∃ mallocs transport result handled,
    opHandler.handler.run (.deliver (hdrOf data) mallocs transport) = (result, handled) ∧
      session = if (hdrOf data).id ≠ 0 then (gbOperationSendResponse handled result).2 else handled

/-- What happens to a message is right for its type. -/
def Event.Right : Event → Prop
  | .fast opHandler data =>
    Sized data ∧ opHandler ∈ handlers ∧ opHandler.type = hdrType data ∧ opHandler.hasFastHandler = true
  | .timedout => True
  | .response data => Sized data ∧ hdrType data &&& TYPE_RESPONSE_FLAG ≠ 0
  | .request (some opHandler) data session =>
    Sized data ∧ hdrType data &&& TYPE_RESPONSE_FLAG = 0 ∧ opHandler ∈ handlers ∧ opHandler.type = hdrType data ∧
      opHandler.hasFastHandler = false ∧ Served opHandler data session
  | .request none data session =>
    Sized data ∧ hdrType data &&& TYPE_RESPONSE_FLAG = 0 ∧ (∀ opHandler ∈ handlers, opHandler.type ≠ hdrType data) ∧
      Refused data session

/-- The messages that went through the queue -/
def Event.messages : Event → List (List UInt8)
  | .fast .. | .timedout => []
  | .response data | .request _ data _ => [data]

def RxItem.messages : RxItem → List (List UInt8)
  | .timedout => []
  | .message data => [data]

def Worker.messages : Worker → List (List UInt8)
  | .lock | .take => []
  | .process item => item.messages

/-- The entries that the worker has committed to take -/
def Worker.committed : Worker → ℕ
  | .take => 1
  | .lock | .process _ => 0

/-- A message of any size and content is dropped, or handed to its fast handler, or queued. -/
structure Received (opHandlers : Option (List GbOperationHandler)) (s : State) (data : List UInt8) (memory : Bool) :
    Prop where
  dropped : opHandlers = none ∨ ¬Sized data → greybusRxHandler opHandlers s data memory = s
  fast : opHandlers ≠ none → Sized data → ∀ opHandler ∈ handlers, opHandler.type = hdrType data →
    opHandler.hasFastHandler = true →
      greybusRxHandler opHandlers s data memory = { s with events := s.events ++ [.fast opHandler data] }
  queued : opHandlers ≠ none → Sized data → ¬Fast handlers data →
    greybusRxHandler opHandlers s data memory =
      if memory then
        { s with
          rxFifo := s.rxFifo ++ [.message data]
          rxFifoSemaphore := s.rxFifoSemaphore + 1
          enqueued := s.enqueued ++ [data] }
      else s

variable {handlers} {opHandlers : Option (List GbOperationHandler)} {s next : State}

theorem sized_iff (data : List UInt8) :
    Sized data ↔ ¬data.length < hdrSize ∧ ¬(data.length < le16 data 0 ∨ le16 data 0 < hdrSize) := by
  unfold Sized
  omega

/-- The search in the table returns exactly the handler of a type. -/
def Finds (opHandlers : Option (List GbOperationHandler)) (handlers : List GbOperationHandler) : Prop :=
  ∀ type opHandler, findOperationHandler opHandlers type = some opHandler ↔ opHandler ∈ handlers ∧ opHandler.type = type

theorem Finds.received (finds : Finds opHandlers handlers) (data : List UInt8) (memory : Bool) :
    Received handlers opHandlers s data memory := by
  refine ⟨?_, ?_, ?_⟩
  · intro bad
    unfold greybusRxHandler
    split
    · rfl
    split
    · rfl
    split
    · rfl
    rename_i table long sized
    obtain rfl | unsized := bad
    · exact absurd rfl table
    · exact absurd ((sized_iff data).mpr ⟨long, sized⟩) unsized
  · intro table sized opHandler there type fast
    obtain ⟨long, fits⟩ := (sized_iff data).mp sized
    unfold greybusRxHandler
    rw [if_neg (by rwa [isNone_iff_eq_none]), if_neg long, if_neg fits]
    dsimp only
    rw [(finds (hdrType data) opHandler).mpr ⟨there, type⟩]
    dsimp only
    rw [if_pos fast]
  · intro table sized slow
    obtain ⟨long, fits⟩ := (sized_iff data).mp sized
    unfold greybusRxHandler
    rw [if_neg (by rwa [isNone_iff_eq_none]), if_neg long, if_neg fits]
    dsimp only
    cases found : findOperationHandler opHandlers (hdrType data) with
    | none => rfl
    | some opHandler =>
      obtain ⟨there, type⟩ := (finds (hdrType data) opHandler).mp found
      dsimp only
      rw [if_neg fun fast => slow ⟨opHandler, there, type, fast⟩]
      rfl

theorem refused_of_none (data : List UInt8) (mallocs : Stream' Bool) (transport : Stream' Int)
    (unknown : findOperationHandler opHandlers (hdrType data) = none) :
    Refused data (gbProcessRequest opHandlers (.deliver (hdrOf data) mallocs transport)) := by
  have process : gbProcessRequest opHandlers (.deliver (hdrOf data) mallocs transport) =
      (gbOperationSendResponse (.deliver (hdrOf data) mallocs transport) GB_OP_INVALID).2 := by
    unfold gbProcessRequest
    rw [show findOperationHandler opHandlers (Session.deliver (hdrOf data) mallocs transport).request.type = none from
      unknown]
  rw [process]
  cases granted : mallocs.head with
  | true =>
    refine ⟨GB_OP_INVALID, transport.head, .inl rfl, ?_⟩
    rw [sendResponse_granted GB_OP_INVALID rfl rfl granted, sent_sendBuffer]
    rfl
  | false =>
    refine ⟨GB_OP_NO_MEMORY, transport.head, .inr rfl, ?_⟩
    rw [sendResponse_denied GB_OP_INVALID rfl rfl granted]
    rfl

theorem Finds.processItem (finds : Finds opHandlers handlers) {data : List UInt8} (sized : Sized data)
    (slow : ¬Fast handlers data) (mallocs : Stream' Bool) (transport : Stream' Int) :
    (Dispatch.processItem opHandlers mallocs transport (.message data)).Right handlers := by
  unfold Dispatch.processItem
  dsimp only
  split
  · rename_i flagged
    exact ⟨sized, flagged⟩
  rename_i unflagged
  have plain : hdrType data &&& TYPE_RESPONSE_FLAG = 0 := not_not.mp unflagged
  cases found : findOperationHandler opHandlers (hdrType data) with
  | none =>
    refine ⟨sized, plain, ?_, refused_of_none data mallocs transport found⟩
    intro opHandler there type
    rw [(finds (hdrType data) opHandler).mpr ⟨there, type⟩] at found
    cases found
  | some opHandler =>
    obtain ⟨there, type⟩ := (finds (hdrType data) opHandler).mp found
    have handler : opHandler.hasFastHandler = false :=
      Bool.eq_false_iff.mpr fun fast => slow ⟨opHandler, there, type, fast⟩
    refine ⟨sized, plain, there, type, handler, mallocs, transport, _, _, rfl, ?_⟩
    unfold gbProcessRequest
    rw [show findOperationHandler opHandlers (Session.deliver (hdrOf data) mallocs transport).request.type = _ from found]
    dsimp only
    rw [(run_extends opHandler.handler (.deliver (hdrOf data) mallocs transport)).1]
    rfl

/-- The state of the queue at which the dispatch stays right -/
structure Sound (handlers : List GbOperationHandler) (s : State) : Prop where
  right : ∀ event ∈ s.events, event.Right handlers
  inOrder : s.events.flatMap Event.messages ++ s.worker.messages ++ s.rxFifo.flatMap RxItem.messages = s.enqueued
  permits : s.rxFifoSemaphore + s.worker.committed = s.rxFifo.length
  nonneg : 0 ≤ s.rxFifoSemaphore
  slow : ∀ data ∈ s.worker.messages ++ s.rxFifo.flatMap RxItem.messages, Sized data ∧ ¬Fast handlers data

theorem Sound.listAdd (sound : Sound handlers s) (item : RxItem)
    (slow : ∀ data ∈ item.messages, Sized data ∧ ¬Fast handlers data) :
    Sound handlers { s.listAdd item with enqueued := s.enqueued ++ item.messages } := by
  obtain ⟨right, inOrder, permits, nonneg, queued⟩ := sound
  unfold State.listAdd
  refine ⟨right, ?_, ?_, ?_, ?_⟩
  · dsimp only
    rw [← inOrder, flatMap_append, flatMap_singleton, ← append_assoc]
  · dsimp only
    rw [length_append, length_singleton]
    omega
  · dsimp only
    omega
  · intro data there
    dsimp only at there
    rw [flatMap_append, flatMap_singleton, ← append_assoc] at there
    obtain before | last := mem_append.mp there
    · exact queued data before
    · exact slow data last

theorem Sound.greybusRxHandler (finds : Finds opHandlers handlers) (sound : Sound handlers s) (data : List UInt8)
    (memory : Bool) : Sound handlers (Dispatch.greybusRxHandler opHandlers s data memory) := by
  obtain ⟨dropped, fast, queued⟩ := finds.received (s := s) data memory
  by_cases bad : opHandlers = none ∨ ¬Sized data
  · rw [dropped bad]
    exact sound
  obtain ⟨table, sized⟩ := not_or.mp bad
  rw [not_not] at sized
  by_cases quick : Fast handlers data
  · obtain ⟨opHandler, there, type, handler⟩ := quick
    rw [fast table sized opHandler there type handler]
    refine ⟨?_, ?_, sound.permits, sound.nonneg, sound.slow⟩
    · intro event happened
      obtain before | last := mem_append.mp happened
      · exact sound.right event before
      · obtain rfl := mem_singleton.mp last
        exact ⟨sized, there, type, handler⟩
    · dsimp only
      rw [flatMap_append, flatMap_singleton]
      exact (congrArg (· ++ _ ++ _) (append_nil _)).trans sound.inOrder
  · rw [queued table sized quick]
    split
    · refine sound.listAdd (.message data) fun other same => ?_
      obtain rfl := mem_singleton.mp same
      exact ⟨sized, quick⟩
    · exact sound

theorem Sound.gbOperationTimeout (sound : Sound handlers s) : Sound handlers (Dispatch.gbOperationTimeout s) := by
  unfold Dispatch.gbOperationTimeout
  split
  · exact sound
  · have added := sound.listAdd .timedout nofun
    rw [show s.enqueued ++ RxItem.timedout.messages = (s.listAdd .timedout).enqueued from append_nil _] at added
    exact added

section
variable (finds : Finds opHandlers handlers) (sound : Sound handlers s)
include finds sound

theorem Sound.gbPendingMessageWorker {mallocs : Stream' Bool} {transport : Stream' Int}
    (worked : Dispatch.gbPendingMessageWorker opHandlers s mallocs transport = some next) : Sound handlers next := by
  obtain ⟨right, inOrder, permits, nonneg, slow⟩ := sound
  unfold Dispatch.gbPendingMessageWorker at worked
  cases here : s.worker with
  | lock =>
    rw [here] at worked inOrder permits slow
    dsimp only at worked
    split at worked
    · cases worked
    obtain rfl := some.inj worked
    refine ⟨right, inOrder, ?_, ?_, slow⟩
    · change s.rxFifoSemaphore - 1 + 1 = s.rxFifo.length
      change s.rxFifoSemaphore + 0 = s.rxFifo.length at permits
      omega
    · dsimp only
      omega
  | take =>
    rw [here] at worked inOrder permits slow
    dsimp only at worked
    cases queue : s.rxFifo with
    | nil =>
      rw [queue] at worked
      cases worked
    | cons item rest =>
      rw [queue] at worked inOrder permits slow
      obtain rfl := some.inj worked
      rw [flatMap_cons] at inOrder slow
      refine ⟨right, ?_, ?_, nonneg, slow⟩
      · rw [← inOrder]
        exact (append_assoc _ _ _).trans (congrArg (· ++ _) (append_nil _).symm)
      · change s.rxFifoSemaphore + 0 = rest.length
        change s.rxFifoSemaphore + 1 = (item :: rest).length at permits
        rw [length_cons] at permits
        omega
  | process item =>
    rw [here] at worked inOrder permits slow
    obtain rfl := some.inj worked
    have done : (Dispatch.processItem opHandlers mallocs transport item).messages = item.messages := by
      cases item with
      | timedout => rfl
      | message data =>
        unfold Dispatch.processItem
        dsimp only
        split <;> rfl
    refine ⟨?_, ?_, permits, nonneg, ?_⟩
    · intro event happened
      obtain before | last := mem_append.mp happened
      · exact right event before
      obtain rfl := mem_singleton.mp last
      cases item with
      | timedout => trivial
      | message data =>
        obtain ⟨sized, quick⟩ := slow data (mem_append_left _ (mem_singleton_self data))
        exact finds.processItem sized quick mallocs transport
    · dsimp only
      rw [flatMap_append, flatMap_singleton, done]
      exact (congrArg (· ++ _) (append_nil _)).trans inOrder
    · intro data there
      exact slow data (mem_append_right _ there)

/-- A step keeps the messages in order and their handlers right. -/
theorem Sound.step {action : Action} (stepped : Dispatch.step opHandlers s action = some next) :
    Sound handlers next := by
  cases action with
  | receive data memory =>
    obtain rfl := some.inj stepped
    exact sound.greybusRxHandler finds data memory
  | timeout =>
    obtain rfl := some.inj stepped
    exact sound.gbOperationTimeout
  | work mallocs transport => exact sound.gbPendingMessageWorker finds stepped

end

/-- The sorted table finds each of its handlers. -/
theorem Distinct.finds {qsort : Qsort gbCompareHandlers} (table : Option (List GbOperationHandler))
    (distinct : Distinct (table.getD [])) : Finds (table.map qsort.sort) (table.getD []) := by
  intro type opHandler
  cases table with
  | none => exact iff_of_false nofun fun there => not_mem_nil there.1
  | some handlers => exact distinct.find_iff

end Dispatched

end Dispatch

end Phabos.Greybus
