import Mathlib.Algebra.BigOperators.Group.Finset.Basic
import Phabos.Library.Run
import Phabos.Proof.Unipro.Framing

namespace Phabos.Unipro
open Library List Option

def TxEvent.bytes : TxEvent → List (BitVec 8)
  | .data _ bytes => bytes
  | .eom => []

/-- The bytes that have been written for a buffer -/
def bytesOf (id : ℕ) (wire : List (ℕ × TxEvent)) : List (BitVec 8) :=
  wire.flatMap fun entry => if entry.1 = id then entry.2.bytes else []

/-- The buffers of a CPort in the order of their submission -/
def Machine.sentTo (s : Machine) (cport : ℕ) : List ℕ :=
  (s.submitted.zipIdx.filter fun entry => entry.1.1 = cport).map Prod.snd

/-- The buffers of a CPort in the order in which their callbacks have run -/
def Machine.completedOf (s : Machine) (cport : ℕ) : List ℕ :=
  (s.completed.filter fun entry => entry.1 = cport).map fun entry => entry.2.1

/-- The buffer whose callback the worker is about to run -/
def TxWorker.inHand (cport : ℕ) : TxWorker → List ℕ
  | .callback i _ id _ => if i = cport then [id] else []
  | _ => []

/-- The number of buffers in the queues of all CPorts -/
def Machine.pending (s : Machine) : ℕ := ∑ cport ∈ Finset.range s.cportCount, (s.cports cport).txFifo.length

/-- A buffer may be completed with success when all its bytes have been written, and else because its send failed. -/
def Machine.Settled (s : Machine) (cport id : ℕ) (status : Int) : Prop :=
  ∃ data, s.submitted[id]? = some (cport, data) ∧ (status = 0 ∧ bytesOf id s.wire = data ∨ status = - EPIPE)

/-- The callbacks of each CPort have run once each in the order of submission, followed by what is still queued, each
of them after the last byte or a failure, and while the worker is blocked no more buffers are queued than calls are
half done. -/
structure Machine.Delivered (s : Machine) : Prop where
  ordered : ∀ cport, s.completedOf cport ++ s.worker.inHand cport ++ (s.cports cport).txFifo.map (·.id) =
    s.sentTo cport
  once : ∀ cport, (s.sentTo cport).Pairwise (· < ·)
  settled : ∀ entry ∈ s.completed, s.Settled entry.1 entry.2.1 entry.2.2
  blocked : s.worker = .down → s.permits = 0 → s.pending ≤ s.halfDone

/-- A submitted buffer is shorter than `2 ^ 31` bytes, and the count of the semaphore has room for another permit. -/
def Machine.Admits (s : Machine) : Action → Prop
  | .sendAsync _ data => data.length < 2 ^ 31
  | .semaphoreUp => s.permits.toNat + 1 < 2 ^ 32
  | _ => True

instance (s : Machine) (action : Action) : Decidable (s.Admits action) :=
  match action with
  | .sendAsync _ data => inferInstanceAs (Decidable (data.length < 2 ^ 31))
  | .semaphoreUp => inferInstanceAs (Decidable (s.permits.toNat + 1 < 2 ^ 32))
  | .connect .. | .semaphoreDown | .sendTxBuffer _ | .nextPass | .listDel | .runCallback => isTrue trivial

section Wire
variable {id tag : ℕ} {wire : List (ℕ × TxEvent)}

@[simp] theorem bytesOf_append (later : List (ℕ × TxEvent)) :
    bytesOf id (wire ++ later) = bytesOf id wire ++ bytesOf id later := flatMap_append

theorem bytesOf_own (events : List TxEvent) :
    bytesOf id (events.map fun event => (id, event)) = events.flatMap TxEvent.bytes := by
  unfold bytesOf
  rw [flatMap_map]
  simp only [if_true]

theorem bytesOf_other (events : List TxEvent) (differs : tag ≠ id) :
    bytesOf id (events.map fun event => (tag, event)) = [] := by
  unfold bytesOf
  rw [flatMap_map]
  simp only [differs, if_false, flatMap_eq_nil_iff, implies_true]

theorem bytesOf_absent (absent : ∀ entry ∈ wire, entry.1 ≠ id) : bytesOf id wire = [] := by
  refine flatMap_eq_nil_iff.mpr fun entry there => ?_
  rw [if_neg (absent entry there)]

end Wire

/-- What a try to send a buffer changes -/
structure Transmitted (before : TsbUniproBuffer) (result : Option Int × TsbUniproBuffer × List TxEvent) : Prop where
  id : result.2.1.id = before.id
  data : result.2.1.data = before.data
  len : result.2.1.len = before.len
  sent : result.2.1.byteSent.toNat ≤ before.data.length
  written : before.data.take result.2.1.byteSent.toNat =
    before.data.take before.byteSent.toNat ++ result.2.2.flatMap TxEvent.bytes
  status : ∀ status ∈ result.1, status = 0 ∧ result.2.1.byteSent.toNat = before.data.length ∨ status = - EPIPE

theorem transmitted {buffer : TsbUniproBuffer} (short : buffer.data.length < 2 ^ 31)
    (len : buffer.len = lengthOf buffer.data) (left : buffer.byteSent.toNat ≤ buffer.data.length) (isConnected : Bool)
    (reading : BitVec 16) : Transmitted buffer (buffer.transmit isConnected reading) := by
  cases isConnected with
  | false =>
    refine ⟨rfl, rfl, rfl, left, (append_nil _).symm, ?_⟩
    rintro status same
    exact .inr (some.inj same).symm
  | true =>
    have wide : buffer.data.length < 2 ^ 32 := by omega
    have whole : buffer = bufferOf buffer.id buffer.data buffer.som buffer.byteSent := by
      unfold bufferOf
      rw [← len]
    have after : (nextSent buffer.data buffer.byteSent reading).toNat =
        buffer.byteSent.toNat + countOf buffer.data buffer.byteSent reading := toNat_add_countOf wide left _
    have bound : countOf buffer.data buffer.byteSent reading ≤ buffer.data.length - buffer.byteSent.toNat :=
      Nat.min_le_right _ _
    have bytes : flatMap TxEvent.bytes
        ((if reading = 0 then []
          else [.data buffer.som ((buffer.data.drop buffer.byteSent.toNat).take
            (countOf buffer.data buffer.byteSent reading))]) ++
          if (lengthOf buffer.data).sle (nextSent buffer.data buffer.byteSent reading) then [.eom] else []) =
        (buffer.data.drop buffer.byteSent.toNat).take (countOf buffer.data buffer.byteSent reading) := by
      have mark (complete : Bool) : (if complete then [TxEvent.eom] else []).flatMap TxEvent.bytes = [] := by
        cases complete <;> rfl
      rw [flatMap_append, mark, append_nil]
      split
      · rename_i none
        have nothing : countOf buffer.data buffer.byteSent 0 = 0 := Nat.zero_min _
        rw [none, nothing]
        rfl
      · exact flatMap_singleton ..
    rw [whole, transmit_eq wide left reading, ← whole]
    refine ⟨rfl, rfl, len.symm, ?_, ?_, ?_⟩
    · change (nextSent buffer.data buffer.byteSent reading).toNat ≤ _
      omega
    · change buffer.data.take (nextSent buffer.data buffer.byteSent reading).toNat = _
      rw [after, take_add]
      exact congrArg _ bytes.symm
    · intro status same
      change (if _ then some 0 else none) = some status at same
      obtain ⟨complete, same⟩ := ite_none_right_eq_some.mp same
      refine .inl ⟨(some.inj same).symm, ?_⟩
      have all := (complete_iff short left reading).mp complete
      change (nextSent buffer.data buffer.byteSent reading).toNat = _
      omega

/-- What holds of a buffer in the queue of a CPort -/
structure Machine.Queued (s : Machine) (cport : ℕ) (buffer : TsbUniproBuffer) : Prop where
  known : s.submitted[buffer.id]? = some (cport, buffer.data)
  short : buffer.data.length < 2 ^ 31
  len : buffer.len = lengthOf buffer.data
  left : buffer.byteSent.toNat ≤ buffer.data.length
  written : bytesOf buffer.id s.wire = buffer.data.take buffer.byteSent.toNat

/-- The buffer in the hands of the worker may be completed with the worker's status. -/
def Machine.InHand (s : Machine) : TxWorker → Prop
  | .dequeue i _ status => ∃ buffer ∈ (s.cports i).txFifo.head?, s.Settled i buffer.id status
  | .callback i _ id status => s.Settled i id status
  | _ => True

structure Machine.Orderly (s : Machine) : Prop where
  ordered : ∀ cport, s.completedOf cport ++ s.worker.inHand cport ++ (s.cports cport).txFifo.map (·.id) =
    s.sentTo cport
  queued : ∀ cport, ∀ buffer ∈ (s.cports cport).txFifo, s.Queued cport buffer
  settled : ∀ entry ∈ s.completed, s.Settled entry.1 entry.2.1 entry.2.2
  inHand : s.InHand s.worker
  tags : ∀ entry ∈ s.wire, entry.1 < s.submitted.length

section Buffers
variable {s next : Machine}

theorem sentTo_sorted (s : Machine) (cport : ℕ) : (s.sentTo cport).Pairwise (· < ·) := by
  have whole : (s.submitted.zipIdx.map Prod.snd).Pairwise (· < ·) := by
    rw [zipIdx_map_snd]
    exact pairwise_lt_range'
  exact whole.sublist (filter_sublist.map Prod.snd)

theorem sentTo_submit (cport i : ℕ) (data : List (BitVec 8)) (submitted : next.submitted = s.submitted ++ [(i, data)]) :
    next.sentTo cport = s.sentTo cport ++ if i = cport then [s.submitted.length] else [] := by
  unfold Machine.sentTo
  rw [submitted, zipIdx_append, filter_append, map_append]
  congr 1
  by_cases same : i = cport <;> simp [same]

variable {buffer : TsbUniproBuffer}

theorem Machine.Orderly.settled_ne (orderly : s.Orderly) {i : ℕ}
    (there : buffer ∈ (s.cports i).txFifo) : ∀ entry ∈ s.completed, entry.2.1 ≠ buffer.id := by
  intro entry finished same
  obtain ⟨data, known, -⟩ := orderly.settled entry finished
  have place := (orderly.queued i buffer there).known
  rw [same, place] at known
  obtain ⟨cport, -⟩ := Prod.mk.inj (some.inj known)
  -- Both are buffers of the same CPort, where each number comes up once.
  have distinct := (sentTo_sorted s i).imp (fun less => Nat.ne_of_lt less)
  rw [← orderly.ordered i, append_assoc] at distinct
  have apart := (pairwise_append.mp distinct).2.2
  refine apart entry.2.1 ?_ buffer.id ?_ same
  · exact mem_map.mpr ⟨entry, mem_filter.mpr ⟨finished, decide_eq_true cport.symm⟩, rfl⟩
  · exact mem_append_right _ (mem_map_of_mem there)

variable {rest : List TsbUniproBuffer}

theorem Machine.Orderly.queued_ne (orderly : s.Orderly) {i cport : ℕ} {buffer other : TsbUniproBuffer}
    (fifo : (s.cports i).txFifo = buffer :: rest)
    (there : other ∈ if cport = i then rest else (s.cports cport).txFifo) : buffer.id ≠ other.id := by
  have first : buffer ∈ (s.cports i).txFifo := fifo ▸ mem_cons_self
  have place := (orderly.queued i buffer first).known
  split at there
  · have distinct := (sentTo_sorted s i).imp (fun less => Nat.ne_of_lt less)
    rw [← orderly.ordered i, fifo, map_cons] at distinct
    have apart := (pairwise_append.mp distinct).2.1
    exact (pairwise_cons.mp apart).1 other.id (mem_map_of_mem there)
  · rename_i differs
    intro same
    have known := (orderly.queued cport other there).known
    rw [← same, place] at known
    exact differs (Prod.mk.inj (some.inj known)).1.symm

theorem Machine.Queued.mono {cport : ℕ} (queued : s.Queued cport buffer)
    (submitted : next.submitted[buffer.id]? = s.submitted[buffer.id]?)
    (wire : bytesOf buffer.id next.wire = bytesOf buffer.id s.wire) : next.Queued cport buffer :=
  ⟨submitted.trans queued.known, queued.short, queued.len, queued.left, wire.trans queued.written⟩

theorem Machine.Settled.mono {cport id : ℕ} {status : Int} (settled : s.Settled cport id status)
    (submitted : next.submitted[id]? = s.submitted[id]?) (wire : bytesOf id next.wire = bytesOf id s.wire) :
    next.Settled cport id status := by
  obtain ⟨data, known, ends⟩ := settled
  exact ⟨data, submitted.trans known, wire.symm ▸ ends⟩

theorem setFifo_fifo (i : ℕ) (txFifo : List TsbUniproBuffer) (cport : ℕ) :
    ((s.setFifo i txFifo).cports cport).txFifo = if cport = i then txFifo else (s.cports cport).txFifo := by
  unfold Machine.setFifo
  dsimp only
  rw [Function.update_apply]
  split <;> rfl

theorem sentTo_congr (submitted : next.submitted = s.submitted) (cport : ℕ) : next.sentTo cport = s.sentTo cport := by
  unfold Machine.sentTo
  rw [submitted]

theorem completedOf_congr (completed : next.completed = s.completed) (cport : ℕ) :
    next.completedOf cport = s.completedOf cport := by
  unfold Machine.completedOf
  rw [completed]

section
variable (orderly : s.Orderly)
include orderly

theorem Machine.Orderly.quiet (fifo : ∀ cport, (next.cports cport).txFifo = (s.cports cport).txFifo)
    (submitted : next.submitted = s.submitted) (wire : next.wire = s.wire) (completed : next.completed = s.completed)
    (inHand : ∀ cport, next.worker.inHand cport = s.worker.inHand cport) (hand : next.InHand next.worker) :
    next.Orderly := by
  refine ⟨fun cport => ?_, fun cport buffer there => ?_, fun entry there => ?_, hand, ?_⟩
  · rw [completedOf_congr completed, inHand, fifo, sentTo_congr submitted, orderly.ordered]
  · exact (orderly.queued cport buffer (fifo cport ▸ there)).mono (by rw [submitted]) (by rw [wire])
  · exact (orderly.settled entry (completed ▸ there)).mono (by rw [submitted]) (by rw [wire])
  · rw [wire, submitted]
    exact orderly.tags

/-- The buffer in the worker's hands stays what it is while its record, its bytes and the head of its queue stay. -/
theorem Machine.Orderly.hand (worker : next.worker = s.worker)
    (head : ∀ cport, ∀ buffer ∈ (s.cports cport).txFifo.head?, buffer ∈ (next.cports cport).txFifo.head?)
    (settled : ∀ cport id status, s.Settled cport id status → next.Settled cport id status) :
    next.InHand next.worker := by
  have hand := orderly.inHand
  rw [worker]
  cases place : s.worker with
  | down => trivial
  | visit => trivial
  | dequeue i isBusy status =>
    rw [place] at hand
    obtain ⟨buffer, first, ends⟩ := hand
    exact ⟨buffer, head i buffer first, settled i _ status ends⟩
  | callback i isBusy id status =>
    rw [place] at hand
    exact settled i id status hand

theorem Machine.Orderly.submit {i : ℕ} {data : List (BitVec 8)} (short : data.length < 2 ^ 31)
    (fifo : ∀ cport, (next.cports cport).txFifo = if cport = i then (s.cports i).txFifo ++ [.create s.submitted.length data] else (s.cports cport).txFifo)
    (submitted : next.submitted = s.submitted ++ [(i, data)]) (wire : next.wire = s.wire)
    (completed : next.completed = s.completed) (worker : next.worker = s.worker) : next.Orderly := by
  have known {id : ℕ} {entry : ℕ × List (BitVec 8)} (there : s.submitted[id]? = some entry) :
      next.submitted[id]? = s.submitted[id]? := by
    rw [submitted]
    exact List.getElem?_append_left (List.getElem?_eq_some_iff.mp there).1
  have settled (cport id : ℕ) (status : Int) (ends : s.Settled cport id status) : next.Settled cport id status := by
    have ⟨bytes, place, _⟩ := ends
    exact ends.mono (known place) (by rw [wire])
  refine ⟨fun cport => ?_, fun cport buffer there => ?_, fun entry there => ?_, ?_, ?_⟩
  · rw [completedOf_congr completed, worker, fifo, sentTo_submit cport i data submitted, ← orderly.ordered]
    by_cases same : cport = i
    · rw [if_pos same, if_pos same.symm, map_append, same, ← append_assoc]
      rfl
    · rw [if_neg same, if_neg (fun equal => same equal.symm), append_nil]
  · rw [fifo] at there
    split at there
    · rename_i same
      rcases mem_append.mp there with old | new
      · have queued := orderly.queued i buffer old
        exact same ▸ queued.mono (known queued.known) (by rw [wire])
      · rw [mem_singleton.mp new, same]
        refine ⟨?_, short, rfl, Nat.zero_le _, ?_⟩
        · rw [submitted]
          exact List.getElem?_concat_length
        · rw [wire]
          exact bytesOf_absent fun entry there => Nat.ne_of_lt (orderly.tags entry there)
    · have queued := orderly.queued cport buffer there
      exact queued.mono (known queued.known) (by rw [wire])
  · exact settled _ _ _ (orderly.settled entry (completed ▸ there))
  · refine orderly.hand worker (fun cport buffer first => ?_) settled
    rw [fifo]
    split
    · rename_i same
      rw [same] at first
      rw [List.head?_append, first]
      rfl
    · exact first
  · intro entry there
    rw [submitted, length_append]
    exact Nat.lt_add_right 1 (orderly.tags entry (wire ▸ there))

theorem Machine.Orderly.transmit {i : ℕ} (head : (s.cports i).txFifo = buffer :: rest)
    {result : Option Int × TsbUniproBuffer × List TxEvent} (transmitted : Transmitted buffer result)
    (fifo : ∀ cport, (next.cports cport).txFifo = if cport = i then result.2.1 :: rest else (s.cports cport).txFifo)
    (submitted : next.submitted = s.submitted)
    (wire : next.wire = s.wire ++ result.2.2.map fun event => (buffer.id, event))
    (completed : next.completed = s.completed) (free : ∀ cport, s.worker.inHand cport = [])
    (worker : (∃ status ∈ result.1, ∃ isBusy, next.worker = .dequeue i isBusy status) ∨ ∃ j isBusy, next.worker = .visit j isBusy) :
    next.Orderly := by
  have first : buffer ∈ (s.cports i).txFifo := head ▸ mem_cons_self
  have queued := orderly.queued i buffer first
  have others {id : ℕ} (differs : buffer.id ≠ id) : bytesOf id next.wire = bytesOf id s.wire := by
    rw [wire, bytesOf_append, bytesOf_other _ differs, append_nil]
  have own : bytesOf buffer.id next.wire = buffer.data.take result.2.1.byteSent.toNat := by
    rw [wire, bytesOf_append, bytesOf_own, queued.written, transmitted.written]
  have inHand : ∀ cport, next.worker.inHand cport = [] := by
    rcases worker with ⟨status, -, isBusy, place⟩ | ⟨j, isBusy, place⟩ <;> exact fun _ => place ▸ rfl
  refine ⟨fun cport => ?_, fun cport other there => ?_, fun entry there => ?_, ?_, ?_⟩
  · rw [completedOf_congr completed, inHand, sentTo_congr submitted, ← orderly.ordered, free, fifo]
    split
    · rename_i same
      rw [same, head, map_cons, map_cons, transmitted.id]
    · rfl
  · rw [fifo] at there
    have rests (differs : buffer.id ≠ other.id) (old : s.Queued cport other) : next.Queued cport other :=
      old.mono (by rw [submitted]) (others differs)
    split at there
    · rename_i same
      rcases mem_cons.mp there with rfl | later
      · rw [same]
        refine ⟨?_, ?_, ?_, ?_, ?_⟩
        · rw [submitted, transmitted.id, transmitted.data]
          exact queued.known
        · rw [transmitted.data]
          exact queued.short
        · rw [transmitted.len, transmitted.data]
          exact queued.len
        · rw [transmitted.data]
          exact transmitted.sent
        · rw [transmitted.id, transmitted.data]
          exact own
      · have listed : other ∈ if i = i then rest else (s.cports i).txFifo := by
          rw [if_pos rfl]
          exact later
        exact rests (orderly.queued_ne head listed) (same ▸ orderly.queued i other (head ▸ mem_cons_of_mem _ later))
    · rename_i differs
      exact rests (orderly.queued_ne head (by rw [if_neg differs]; exact there)) (orderly.queued cport other there)
  · have old := completed ▸ there
    exact (orderly.settled entry old).mono (by rw [submitted]) (others (orderly.settled_ne first entry old).symm)
  · rcases worker with ⟨status, ends, isBusy, place⟩ | ⟨j, isBusy, place⟩
    · rw [place]
      refine ⟨result.2.1, ?_, buffer.data, ?_, ?_⟩
      · rw [fifo, if_pos rfl]
        rfl
      · rw [submitted, transmitted.id]
        exact queued.known
      · rw [transmitted.id, own]
        refine (transmitted.status status ends).imp_left fun done => ⟨done.1, ?_⟩
        rw [done.2, take_length]
    · rw [place]
      trivial
  · intro entry there
    rw [submitted]
    rw [wire] at there
    rcases mem_append.mp there with old | new
    · exact orderly.tags entry old
    · obtain ⟨event, -, rfl⟩ := mem_map.mp new
      exact (List.getElem?_eq_some_iff.mp queued.known).1

theorem Machine.Orderly.listDel {i : ℕ} {isBusy : Bool} {status : Int} (place : s.worker = .dequeue i isBusy status)
    (head : (s.cports i).txFifo = buffer :: rest)
    (fifo : ∀ cport, (next.cports cport).txFifo = if cport = i then rest else (s.cports cport).txFifo)
    (submitted : next.submitted = s.submitted) (wire : next.wire = s.wire) (completed : next.completed = s.completed)
    (worker : next.worker = .callback i isBusy buffer.id status) : next.Orderly := by
  have settled {cport id : ℕ} {status : Int} (ends : s.Settled cport id status) : next.Settled cport id status :=
    ends.mono (by rw [submitted]) (by rw [wire])
  refine ⟨fun cport => ?_, fun cport other there => ?_, fun entry there => ?_, ?_, ?_⟩
  · have before := orderly.ordered cport
    rw [place] at before
    rw [completedOf_congr completed, sentTo_congr submitted, fifo, worker, ← before]
    by_cases same : cport = i
    · subst same
      rw [if_pos rfl, head, map_cons, append_assoc, append_assoc, TxWorker.inHand, if_pos rfl]
      rfl
    · rw [if_neg same, TxWorker.inHand, if_neg (fun equal => same equal.symm)]
      rfl
  · rw [fifo] at there
    have listed : other ∈ (s.cports cport).txFifo := by
      split at there
      · rename_i same
        rw [same, head]
        exact mem_cons_of_mem _ there
      · exact there
    exact (orderly.queued cport other listed).mono (by rw [submitted]) (by rw [wire])
  · exact settled (orderly.settled entry (completed ▸ there))
  · have hand := orderly.inHand
    rw [place] at hand
    obtain ⟨first, same, ends⟩ := hand
    rw [head] at same
    obtain rfl := some.inj same
    rw [worker]
    exact settled ends
  · rw [wire, submitted]
    exact orderly.tags

theorem Machine.Orderly.runCallback {i j id : ℕ} {isBusy : Bool} {status : Int}
    (place : s.worker = .callback i isBusy id status) (fifo : next.cports = s.cports)
    (submitted : next.submitted = s.submitted) (wire : next.wire = s.wire)
    (completed : next.completed = s.completed ++ [(i, id, status)]) (worker : next.worker = .visit j isBusy) :
    next.Orderly := by
  have settled {cport id : ℕ} {status : Int} (ends : s.Settled cport id status) : next.Settled cport id status :=
    ends.mono (by rw [submitted]) (by rw [wire])
  refine ⟨fun cport => ?_, fun cport other there => ?_, fun entry there => ?_, ?_, ?_⟩
  · have before := orderly.ordered cport
    rw [place] at before
    have grown : next.completedOf cport = s.completedOf cport ++ if i = cport then [id] else [] := by
      unfold Machine.completedOf
      rw [completed, filter_append, map_append]
      congr 1
      by_cases same : i = cport <;> simp [same]
    have free : TxWorker.inHand cport (.visit j isBusy) = [] := rfl
    rw [grown, sentTo_congr submitted, fifo, worker, ← before, free, append_nil]
    rfl
  · exact (orderly.queued cport other (fifo ▸ there)).mono (by rw [submitted]) (by rw [wire])
  · rw [completed] at there
    rcases mem_append.mp there with old | new
    · exact settled (orderly.settled entry old)
    · have hand := orderly.inHand
      rw [place] at hand
      rw [mem_singleton.mp new]
      exact settled hand
  · rw [worker]
    trivial
  · rw [wire, submitted]
    exact orderly.tags

end

theorem sendAsync_cases (s : Machine) (i : ℕ) (data : List (BitVec 8)) :
    s.sendAsync i data = s ∨ s.sendAsync i data = { s.setFifo i ((s.cports i).txFifo ++ [.create s.submitted.length data])
      with halfDone := s.halfDone + 1, submitted := s.submitted ++ [(i, data)] } := by
  unfold Machine.sendAsync UniproCport.submit
  cases (s.cports i).isConnected with
  | false => exact .inl rfl
  | true => exact .inr rfl

/-- What a step of the machine does -/
inductive Step (s : Machine) : Action → Machine → Prop
  | connect (i : ℕ) (isConnected : Bool) : Step s (.connect i isConnected)
      { s with cports := Function.update s.cports i { s.cports i with isConnected } }
  | refuse (i : ℕ) (data : List (BitVec 8)) : Step s (.sendAsync i data) s
  | submit (i : ℕ) (data : List (BitVec 8)) (known : i < s.cportCount) : Step s (.sendAsync i data)
      { s.setFifo i ((s.cports i).txFifo ++ [.create s.submitted.length data]) with
        halfDone := s.halfDone + 1, submitted := s.submitted ++ [(i, data)] }
  | semaphoreUp (half : 0 < s.halfDone) : Step s .semaphoreUp
      { s with permits := s.permits + 1, halfDone := s.halfDone - 1 }
  | semaphoreDown (place : s.worker = .down) (permit : s.permits ≠ 0) : Step s .semaphoreDown
      { s with permits := s.permits - 1, worker := .visit 0 false }
  | pass (reading : BitVec 16) (i : ℕ) (isBusy : Bool) (place : s.worker = .visit i isBusy)
      (empty : (s.cports i).txFifo = []) : Step s (.sendTxBuffer reading) { s with worker := .visit (i + 1) isBusy }
  | transmit (reading : BitVec 16) (i : ℕ) (isBusy : Bool) (place : s.worker = .visit i isBusy)
      (known : i < s.cportCount) (buffer : TsbUniproBuffer) (rest : List TsbUniproBuffer)
      (head : (s.cports i).txFifo = buffer :: rest) : Step s (.sendTxBuffer reading)
        { s.setFifo i ((buffer.transmit (s.cports i).isConnected reading).2.1 :: rest) with
          wire := s.wire ++ (buffer.transmit (s.cports i).isConnected reading).2.2.map fun event => (buffer.id, event)
          worker := match (buffer.transmit (s.cports i).isConnected reading).1 with
            | some status => .dequeue i isBusy status
            | none => .visit (i + 1) true }
  | again (i : ℕ) (place : s.worker = .visit i true) : Step s .nextPass { s with worker := .visit 0 false }
  | sent (i : ℕ) (place : s.worker = .visit i false) (past : s.cportCount ≤ i) : Step s .nextPass
      { s with worker := .down }
  | listDel (i : ℕ) (isBusy : Bool) (status : Int) (place : s.worker = .dequeue i isBusy status)
      (buffer : TsbUniproBuffer) (rest : List TsbUniproBuffer) (head : (s.cports i).txFifo = buffer :: rest) :
      Step s .listDel { s.setFifo i rest with worker := .callback i isBusy buffer.id status }
  | runCallback (i : ℕ) (isBusy : Bool) (id : ℕ) (status : Int) (place : s.worker = .callback i isBusy id status) :
      Step s .runCallback
        { s with completed := s.completed ++ [(i, id, status)], worker := .visit (i + 1) isBusy }

theorem step_cases {action : Action} (stepped : step s action = some next) : Step s action next := by
  unfold step at stepped
  cases action with
  | connect i isConnected =>
    obtain rfl := some.inj stepped
    exact .connect i isConnected
  | sendAsync i data =>
    obtain ⟨known, rfl⟩ := ite_some_none_eq_some.mp stepped
    rcases sendAsync_cases s i data with same | same <;> rw [same]
    · exact .refuse i data
    · exact .submit i data known.1
  | semaphoreUp =>
    obtain ⟨half, rfl⟩ := ite_some_none_eq_some.mp stepped
    exact .semaphoreUp half
  | semaphoreDown =>
    obtain ⟨enabled, rfl⟩ := ite_some_none_eq_some.mp stepped
    exact .semaphoreDown enabled.1 enabled.2
  | sendTxBuffer reading =>
    dsimp only at stepped
    split at stepped
    · rename_i i isBusy place
      obtain ⟨known, rfl⟩ := ite_some_none_eq_some.mp stepped
      unfold Machine.sendTxBuffer
      split
      · exact .pass reading i isBusy place ‹_›
      · rename_i buffer rest head
        exact .transmit reading i isBusy place known buffer rest head
    · cases stepped
  | nextPass =>
    dsimp only at stepped
    split at stepped
    · rename_i i isBusy place
      obtain ⟨past, same⟩ := ite_none_left_eq_some.mp stepped
      obtain rfl := some.inj same
      cases isBusy with
      | true => exact .again i place
      | false => exact .sent i place (Nat.le_of_not_lt past)
    · cases stepped
  | listDel =>
    dsimp only at stepped
    split at stepped
    · rename_i i isBusy status place
      obtain ⟨buffer, first, rfl⟩ := map_eq_some_iff.mp stepped
      exact .listDel i isBusy status place buffer _ (List.cons_head?_tail first).symm
    · cases stepped
  | runCallback =>
    dsimp only at stepped
    split at stepped
    · rename_i i isBusy id status place
      obtain rfl := some.inj stepped
      exact .runCallback i isBusy id status place
    · cases stepped

theorem connect_fifo (i : ℕ) (isConnected : Bool) (cport : ℕ) :
    (Function.update s.cports i { s.cports i with isConnected } cport).txFifo = (s.cports cport).txFifo := by
  rw [Function.update_apply]
  split
  · rename_i same
    rw [same]
  · rfl

/-- An admitted step keeps each queue in order. -/
theorem Machine.Orderly.step {action : Action} (orderly : s.Orderly) (short : s.Admits action)
    (stepped : Unipro.step s action = some next) : next.Orderly := by
  cases step_cases stepped with
  | connect i isConnected =>
    have fifo := connect_fifo (s := s) i isConnected
    refine orderly.quiet fifo rfl rfl rfl (fun _ => rfl) (orderly.hand rfl ?_ ?_)
    · intro cport buffer first
      exact (congrArg head? (fifo cport)).trans first
    · exact fun _ _ _ settled => settled.mono rfl rfl
  | refuse => exact orderly
  | submit i data => exact orderly.submit short (setFifo_fifo i _) rfl rfl rfl rfl
  | semaphoreUp =>
    refine orderly.quiet (fun _ => rfl) rfl rfl rfl (fun _ => rfl) (orderly.hand rfl (fun _ _ first => first) ?_)
    exact fun _ _ _ settled => settled.mono rfl rfl
  | semaphoreDown place | pass reading i isBusy place | again i place | sent i place =>
    exact orderly.quiet (fun _ => rfl) rfl rfl rfl (fun _ => place ▸ rfl) trivial
  | transmit reading i isBusy place known buffer rest head =>
    have queued := orderly.queued i buffer (head ▸ mem_cons_self)
    refine orderly.transmit head (transmitted queued.short queued.len queued.left (s.cports i).isConnected reading)
      (setFifo_fifo i _) rfl rfl rfl (fun _ => place ▸ rfl) ?_
    dsimp only
    split
    · rename_i status ends
      exact .inl ⟨status, ends, isBusy, rfl⟩
    · exact .inr ⟨i + 1, true, rfl⟩
  | listDel i isBusy status place buffer rest head =>
    exact orderly.listDel place head (setFifo_fifo i _) rfl rfl rfl rfl
  | runCallback i isBusy id status place => exact orderly.runCallback place rfl rfl rfl rfl rfl

end Buffers

section Permits
variable {s next : Machine}

/-- Every queued buffer has a permit or a call that is half done. The worker owes one buffer for the permit that it has
taken, until it has completed one, and has then seen a CPort that is busy or still has a buffer before it. -/
def Machine.Funded (s : Machine) : Prop :=
  match s.worker with
  | .down => s.pending ≤ s.permits.toNat + s.halfDone
  | .visit i isBusy => s.pending ≤ s.permits.toNat + s.halfDone + 1 ∧
      (s.pending ≤ s.permits.toNat + s.halfDone ∨ isBusy = true ∨
        ∃ j, i ≤ j ∧ j < s.cportCount ∧ (s.cports j).txFifo ≠ [])
  | .dequeue i _ _ => i < s.cportCount ∧ s.pending ≤ s.permits.toNat + s.halfDone + 1
  | .callback _ _ _ _ => s.pending ≤ s.permits.toNat + s.halfDone

theorem pending_congr (count : next.cportCount = s.cportCount)
    (fifo : ∀ cport, (next.cports cport).txFifo = (s.cports cport).txFifo) : next.pending = s.pending := by
  unfold Machine.pending
  rw [count]
  exact Finset.sum_congr rfl fun cport _ => by rw [fifo]

theorem pending_setFifo {i : ℕ} (known : i < s.cportCount) (txFifo : List TsbUniproBuffer) :
    (s.setFifo i txFifo).pending + (s.cports i).txFifo.length = s.pending + txFifo.length := by
  have there : i ∈ Finset.range s.cportCount := Finset.mem_range.mpr known
  have rest : ∑ cport ∈ (Finset.range s.cportCount).erase i, ((s.setFifo i txFifo).cports cport).txFifo.length =
      ∑ cport ∈ (Finset.range s.cportCount).erase i, (s.cports cport).txFifo.length := by
    refine Finset.sum_congr rfl fun cport other => ?_
    rw [setFifo_fifo, if_neg (Finset.ne_of_mem_erase other)]
  have before := Finset.add_sum_erase _ (fun cport => (s.cports cport).txFifo.length) there
  have after := Finset.add_sum_erase _ (fun cport => ((s.setFifo i txFifo).cports cport).txFifo.length) there
  rw [setFifo_fifo, if_pos rfl, rest] at after
  unfold Machine.pending
  change ∑ cport ∈ Finset.range s.cportCount, ((s.setFifo i txFifo).cports cport).txFifo.length + _ = _
  omega

theorem exists_pending (some : 0 < s.pending) : ∃ j, 0 ≤ j ∧ j < s.cportCount ∧ (s.cports j).txFifo ≠ [] := by
  obtain ⟨j, there, length⟩ := Finset.exists_ne_zero_of_sum_ne_zero (Nat.ne_of_gt some)
  exact ⟨j, Nat.zero_le j, Finset.mem_range.mp there, fun empty => length (by rw [empty]; rfl)⟩

/-- A step that keeps the worker's place, the balance of the buffers and the permits, and no queue gets empty -/
theorem Machine.Funded.keep (funded : s.Funded) (worker : next.worker = s.worker)
    (count : next.cportCount = s.cportCount)
    (balance : next.pending + (s.permits.toNat + s.halfDone) ≤ s.pending + (next.permits.toNat + next.halfDone))
    (stays : ∀ cport, (s.cports cport).txFifo ≠ [] → (next.cports cport).txFifo ≠ []) : next.Funded := by
  unfold Machine.Funded at funded ⊢
  rw [worker, count]
  split at funded
  · omega
  · refine ⟨by omega, ?_⟩
    rcases funded.2 with enough | busy | ⟨j, ahead, known, some⟩
    · exact .inl (by omega)
    · exact .inr (.inl busy)
    · exact .inr (.inr ⟨j, ahead, known, stays j some⟩)
  · exact ⟨funded.1, by omega⟩
  · omega

/-- A step keeps each buffer's permit when the count does not wrap. -/
theorem Machine.Funded.step {action : Action} (funded : s.Funded) (admitted : s.Admits action)
    (stepped : Unipro.step s action = some next) : next.Funded := by
  cases step_cases stepped with
  | connect i isConnected =>
    have fifo := connect_fifo (s := s) i isConnected
    refine funded.keep rfl rfl (Nat.le_of_eq ?_) fun cport some => (fifo cport).symm ▸ some
    exact congrArg (· + _) (pending_congr rfl fifo)
  | refuse => exact funded
  | submit i data known =>
    have grown := pending_setFifo known ((s.cports i).txFifo ++ [.create s.submitted.length data])
    rw [length_append, length_singleton] at grown
    refine funded.keep rfl rfl ?_ fun cport some => ?_
    · change (s.setFifo i _).pending + (s.permits.toNat + s.halfDone) ≤ s.pending + (s.permits.toNat + (s.halfDone + 1))
      omega
    · change ((s.setFifo i _).cports cport).txFifo ≠ []
      rw [setFifo_fifo]
      split
      · exact append_ne_nil_of_right_ne_nil _ (cons_ne_nil _ _)
      · exact some
  | semaphoreUp half =>
    refine funded.keep rfl rfl ?_ fun cport some => some
    have more : (s.permits + 1).toNat = s.permits.toNat + 1 := by
      rw [BitVec.toNat_add, show (1 : BitVec 32).toNat = 1 from rfl, Nat.mod_eq_of_lt admitted]
    change s.pending + (s.permits.toNat + s.halfDone) ≤ s.pending + ((s.permits + 1).toNat + (s.halfDone - 1))
    omega
  | semaphoreDown place permit =>
    unfold Machine.Funded at funded
    rw [place] at funded
    have less : (s.permits - 1).toNat = s.permits.toNat - 1 := by
      bv_omega
    have some : 0 < s.permits.toNat := Nat.pos_of_ne_zero fun none => permit (BitVec.eq_of_toNat_eq none)
    change s.pending ≤ (s.permits - 1).toNat + s.halfDone + 1 ∧
      (s.pending ≤ (s.permits - 1).toNat + s.halfDone ∨ false = true ∨
        ∃ j, 0 ≤ j ∧ j < s.cportCount ∧ (s.cports j).txFifo ≠ [])
    dsimp only at funded
    refine ⟨by omega, ?_⟩
    by_cases enough : s.pending ≤ (s.permits - 1).toNat + s.halfDone
    · exact .inl enough
    · exact .inr (.inr (exists_pending (by omega)))
  | pass reading i isBusy place empty =>
    unfold Machine.Funded at funded
    rw [place] at funded
    refine ⟨funded.1, funded.2.imp_right (Or.imp_right ?_)⟩
    rintro ⟨j, ahead, known, some⟩
    have differs : i ≠ j := by
      rintro rfl
      exact some empty
    exact ⟨j, by omega, known, some⟩
  | transmit reading i isBusy place known buffer rest head =>
    unfold Machine.Funded at funded
    rw [place] at funded
    have same := pending_setFifo known ((buffer.transmit (s.cports i).isConnected reading).2.1 :: rest)
    rw [head, length_cons, length_cons, Nat.add_right_cancel_iff] at same
    unfold Machine.Funded
    dsimp only
    split
    · rename_i down
      split at down <;> cases down
    · rename_i j busy visit
      split at visit
      · cases visit
      · obtain ⟨rfl, rfl⟩ := TxWorker.visit.inj visit
        refine ⟨?_, .inr (.inl rfl)⟩
        change (s.setFifo i _).pending ≤ s.permits.toNat + s.halfDone + 1
        omega
    · rename_i j busy status dequeue
      split at dequeue
      · obtain ⟨rfl, rfl, rfl⟩ := TxWorker.dequeue.inj dequeue
        refine ⟨known, ?_⟩
        change (s.setFifo i _).pending ≤ s.permits.toNat + s.halfDone + 1
        omega
      · cases dequeue
    · rename_i callback
      split at callback <;> cases callback
  | again i place =>
    unfold Machine.Funded at funded
    rw [place] at funded
    refine ⟨funded.1, ?_⟩
    by_cases enough : s.pending ≤ s.permits.toNat + s.halfDone
    · exact .inl enough
    · exact .inr (.inr (exists_pending (s := s) (by omega)))
  | sent i place past =>
    unfold Machine.Funded at funded
    rw [place] at funded
    change s.pending ≤ s.permits.toNat + s.halfDone
    rcases funded.2 with enough | busy | ⟨j, ahead, known, -⟩
    · exact enough
    · cases busy
    · omega
  | listDel i isBusy status place buffer rest head =>
    unfold Machine.Funded at funded
    rw [place] at funded
    have less := pending_setFifo funded.1 rest
    rw [head, length_cons] at less
    change (s.setFifo i rest).pending ≤ s.permits.toNat + s.halfDone
    have owed := funded.2
    omega
  | runCallback i isBusy id status place =>
    unfold Machine.Funded at funded
    rw [place] at funded
    exact ⟨Nat.le_succ_of_le funded, .inl funded⟩

end Permits

/-- In every run of sends, worker steps and readings, the buffers of each CPort are completed once each and in order,
after their last byte or a failure, and the worker is blocked with no more queued buffers than calls are half done. -/
theorem tsb_unipro_queue_delivers (cportCount : ℕ) (actions : List Action) (final : Machine)
    (admitted : Guarded step Machine.Admits (Machine.boot cportCount) actions)
    (ran : run step (Machine.boot cportCount) actions = some final) : final.Delivered := by
  have orderly : final.Orderly := by
    refine run_invariant_of_guarded Machine.Orderly ?_ admitted ran fun orderly => orderly.step
    exact ⟨fun _ => rfl, nofun, nofun, trivial, nofun⟩
  have funded : final.Funded := by
    refine run_invariant_of_guarded Machine.Funded ?_ admitted ran fun funded => funded.step
    exact Nat.le_of_eq (Finset.sum_eq_zero fun _ _ => rfl)
  refine ⟨orderly.ordered, sentTo_sorted final, orderly.settled, fun down none => ?_⟩
  unfold Machine.Funded at funded
  rw [down, none] at funded
  exact funded.trans (Nat.le_of_eq (Nat.zero_add _))

/-- A pass of the worker in which the buffers of two CPorts are sent and completed -/
def twoCports : List Action :=
  [.connect 0 true, .connect 1 true, .sendAsync 0 [7], .sendAsync 1 [8, 9], .semaphoreUp, .semaphoreUp, .semaphoreDown,
    .sendTxBuffer 8, .listDel, .runCallback, .sendTxBuffer 8, .listDel, .runCallback, .nextPass]

/-- Both buffers are completed, and a permit is left over. -/
theorem tsb_unipro_queue_delivers_two :
    ∃ final, run step (Machine.boot 2) twoCports = some final ∧ final.completed = [(0, 0, 0), (1, 1, 0)] ∧
      final.permits = 1 ∧ final.Delivered := by
  refine exists_final (fun s => (s.completed, s.permits)) ([(0, 0, 0), (1, 1, 0)], 1) (by decide +kernel)
    fun final ran same => ?_
  have admitted : Guarded step Machine.Admits (Machine.boot 2) twoCports := by
    decide +kernel
  exact ⟨congrArg Prod.fst same, congrArg Prod.snd same,
    tsb_unipro_queue_delivers 2 twoCports final admitted ran⟩

/-- The length of a buffer of `2 ^ 31` bytes is negative as an `int`, and the buffer is completed with its first chunk. -/
theorem run_long_buffer {data : List (BitVec 8)} (long : data.length = 2 ^ 31) :
    ∃ final, run step (Machine.boot 1) [.connect 0 true, .sendAsync 0 data, .semaphoreUp, .semaphoreDown,
        .sendTxBuffer 8, .listDel, .runCallback] = some final ∧
      final.completed = [(0, 0, 0)] ∧ bytesOf 0 final.wire = data.take 8 := by
  have fits : data.length < 2 ^ 32 := by omega
  have sent : (TsbUniproBuffer.create 0 data).transmit true 8 =
      (some 0, bufferOf 0 data false (nextSent data 0 8), [.data true (data.take 8), .eom]) :=
    transmit_long fits (Nat.le_of_eq long.symm) 8
  have submitted (s : Machine) (one : s.cportCount = 1) : step s (.sendAsync 0 data) = some (s.sendAsync 0 data) :=
    if_pos ⟨by omega, fits⟩
  let connected : Machine := { Machine.boot 1 with cports := Function.update (Machine.boot 1).cports 0 ⟨true, []⟩ }
  let before : Machine := { connected.sendAsync 0 data with permits := 0, halfDone := 0, worker := .visit 0 false }
  let raised : Machine := { connected.sendAsync 0 data with permits := 1, halfDone := 0 }
  have lowered : step raised .semaphoreDown = some before := by
    change (if TxWorker.down = .down ∧ (1 : BitVec 32) ≠ 0 then
      some { raised with permits := 1 - 1, worker := .visit 0 false } else none) = _
    rw [if_pos ⟨rfl, by decide⟩, show (1 : BitVec 32) - 1 = 0 by decide]
  have ran : run step (Machine.boot 1) [.connect 0 true, .sendAsync 0 data, .semaphoreUp, .semaphoreDown] =
      some before := by
    rw [run_cons, show step (Machine.boot 1) (.connect 0 true) = some connected from rfl, bind_some, run_cons,
      submitted connected rfl, bind_some, run_cons,
      show step (connected.sendAsync 0 data) .semaphoreUp = some raised from rfl, bind_some, run_cons, lowered]
    rfl
  have visited : step before (.sendTxBuffer 8) = some { before.setFifo 0 [bufferOf 0 data false (nextSent data 0 8)] with
      wire := before.wire ++ [(0, .data true (data.take 8)), (0, .eom)], worker := .dequeue 0 false 0 } := by
    change some (before.sendTxBuffer 0 false 8) = _
    have cport : before.cports 0 = ⟨true, [.create 0 data]⟩ := rfl
    unfold Machine.sendTxBuffer
    rw [cport]
    dsimp only
    rw [sent]
    rfl
  have whole : run step (Machine.boot 1) [.connect 0 true, .sendAsync 0 data, .semaphoreUp, .semaphoreDown,
      .sendTxBuffer 8, .listDel, .runCallback] = run step before [.sendTxBuffer 8, .listDel, .runCallback] := by
    exact (run_append step _ [_, _, _, _] _).trans (by rw [ran, bind_some])
  rw [whole, run_cons, visited]
  exact ⟨_, rfl, rfl, append_nil _⟩

/-- The worker is blocked with a buffer in a queue while its sender is before `semaphore_up`, and a buffer of `2 ^ 31`
bytes is completed with success after eight of them. -/
theorem tsb_unipro_worker_blocks_with_pending_buffer :
    (∃ final, run step (Machine.boot 1) [.connect 0 true, .sendAsync 0 [7]] = some final ∧
      final.worker = .down ∧ final.permits = 0 ∧ (final.cports 0).txFifo.length = 1) ∧
    ∃ data final, data.length = 2 ^ 31 ∧ run step (Machine.boot 1) [.connect 0 true, .sendAsync 0 data, .semaphoreUp,
        .semaphoreDown, .sendTxBuffer 8, .listDel, .runCallback] = some final ∧
      final.completed = [(0, 0, 0)] ∧ bytesOf 0 final.wire ≠ data := by
  refine ⟨⟨_, rfl, rfl, rfl, rfl⟩, ?_⟩
  have long : (List.replicate (2 ^ 31) (0 : BitVec 8)).length = 2 ^ 31 := List.length_replicate
  obtain ⟨final, ran, completed, written⟩ := run_long_buffer long
  refine ⟨_, final, long, ran, completed, fun all => ?_⟩
  have short := congrArg List.length (written.symm.trans all)
  rw [List.length_take, long] at short
  cases short

end Phabos.Unipro
