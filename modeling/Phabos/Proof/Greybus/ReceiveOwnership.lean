import Phabos.Proof.Greybus.BufferOwners

namespace Phabos.RxBuffer
open Library ByteMemory Greybus List Option

/-- No two holders have one buffer, no live operation has a freed one, and the buffer of an operation in a queue or in
the hands of a worker has the message that was passed for it. -/
structure OneOwner (s : Machine) : Prop where
  distinct : ∀ one other buffer, s.buffer one = some buffer → s.buffer other = some buffer → one = other
  unfreed : ∀ op ∈ s.opSlab.live, s.requestBuffer op ∈ s.store.bufferSlab.live ∨
    ∃ purpose, purpose ≠ Purpose.slab ∧ (s.requestBuffer op, purpose) ∈ s.store.areas
  messages : ∀ entry ∈ s.received ++ s.working, entry.op ∈ s.opSlab.live ∧
    read s.memory (s.requestBuffer entry.op) entry.message.length = entry.message

/-- The operations that something refers to -/
def Machine.operations (s : Machine) : List ℕ := (s.received ++ s.working).map Received.op ++ s.held

/-- What holds between the steps of a run without a queued message from a tape or a URB. -/
structure Orderly (c : Config) (s : Machine) : Prop where
  placed : Placed s.store s.requestBuffer s.installed (Slab.constructed s.opSlab.effects)
  accounted : s.opSlab.Accounted
  built : s.opSlab.Built
  size : s.opSlab.cache.size = c.operationSize
  nodup : s.operations.Nodup
  alive : ∀ op ∈ s.operations, op ∈ s.opSlab.live
  messages : ∀ entry ∈ s.received ++ s.working, entry.message.length ≤ GREYBUS_MTU ∧
    read s.memory (s.requestBuffer entry.op) entry.message.length = entry.message

section Machine
variable {c : Config} {s s' : Machine} {op cport buffer : ℕ}

theorem Orderly.whole (orderly : Orderly c s) :
    s.opSlab.cache.bufferSize = Slab.numObjects * s.opSlab.cache.size := by
  rw [Slab.Mcache.bufferSize, orderly.size]
  exact Nat.mod_eq_of_lt c.small

theorem Orderly.constructed (orderly : Orderly c s) (live : op ∈ s.opSlab.live) :
    op ∈ Slab.constructed s.opSlab.effects :=
  orderly.built.live orderly.accounted orderly.whole live

theorem Orderly.owned (orderly : Orderly c s) (live : op ∈ s.opSlab.live) :
    s.store.Owned (s.requestBuffer op) :=
  orderly.placed.owned op (orderly.constructed live)

theorem mem_operations_of_entry {entry : Received} (there : entry ∈ s.received ++ s.working) :
    entry.op ∈ s.operations :=
  mem_append_left _ (mem_map_of_mem there)

theorem Orderly.not_urb (orderly : Orderly c s) (owned : s.store.Owned buffer) :
    (buffer, Purpose.urb) ∉ s.store.areas := by
  intro there
  have clear := orderly.placed.stocked.clear_of_owned owned there nofun nofun
  have mtu : GREYBUS_MTU = 2048 := rfl
  have bytes : Purpose.urb.bytes = 512 := rfl
  omega

/-- In an orderly state no buffer has two owners. -/
theorem Orderly.oneOwner (orderly : Orderly c s) : OneOwner s where
  distinct := by
    intro one other buffer first second
    cases one with
    | operation op =>
      obtain ⟨live, rfl⟩ : op ∈ s.opSlab.live ∧ s.requestBuffer op = buffer := by
        simpa [Machine.buffer] using first
      cases other with
      | operation op' =>
        obtain ⟨live', same⟩ : op' ∈ s.opSlab.live ∧ s.requestBuffer op' = s.requestBuffer op := by
          simpa [Machine.buffer] using second
        rw [orderly.placed.once op' (orderly.constructed live') op (orderly.constructed live) same]
      | cport cport => exact absurd second (orderly.placed.separate op (orderly.constructed live) cport)
      | urb buffer =>
        obtain ⟨there, rfl⟩ : (buffer, Purpose.urb) ∈ s.store.areas ∧ buffer = s.requestBuffer op := by
          simpa [Machine.buffer] using second
        exact absurd there (orderly.not_urb (orderly.owned live))
    | cport cport =>
      cases other with
      | operation op =>
        obtain ⟨live, rfl⟩ : op ∈ s.opSlab.live ∧ s.requestBuffer op = buffer := by
          simpa [Machine.buffer] using second
        exact absurd first (orderly.placed.separate op (orderly.constructed live) cport)
      | cport cport' => rw [orderly.placed.single cport cport' buffer first second]
      | urb buffer' =>
        obtain ⟨there, rfl⟩ : (buffer', Purpose.urb) ∈ s.store.areas ∧ buffer' = buffer := by
          simpa [Machine.buffer] using second
        exact absurd there (orderly.not_urb (orderly.placed.ports cport buffer' first))
    | urb buffer' =>
      obtain ⟨there, rfl⟩ : (buffer', Purpose.urb) ∈ s.store.areas ∧ buffer' = buffer := by
        simpa [Machine.buffer] using first
      cases other with
      | operation op =>
        obtain ⟨live, same⟩ : op ∈ s.opSlab.live ∧ s.requestBuffer op = buffer' := by
          simpa [Machine.buffer] using second
        exact absurd (same ▸ there) (orderly.not_urb (orderly.owned live))
      | cport cport => exact absurd there (orderly.not_urb (orderly.placed.ports cport buffer' second))
      | urb other =>
        obtain ⟨-, same⟩ : (other, Purpose.urb) ∈ s.store.areas ∧ other = buffer' := by
          simpa [Machine.buffer] using second
        rw [same]
  unfreed := by
    intro op live
    exact (orderly.owned live).imp_right fun page => ⟨.cport, nofun, page⟩
  messages := by
    intro entry there
    exact ⟨orderly.alive _ (mem_operations_of_entry there), (orderly.messages entry there).2⟩

/-- The bus after `gb_probe` is orderly. -/
theorem probed_orderly (c : Config) (opSlab bufferSlab : ℕ) : Orderly c (.probed c opSlab bufferSlab) where
  placed := by
    refine ⟨⟨List.Pairwise.nil, ?_, rfl, ?_⟩, ?_, ?_, ?_, ?_, ?_⟩
    · have positive : 0 < GREYBUS_MTU := by decide
      exact Slab.accounted_create positive rfl rfl rfl
    · exact fun page there => nomatch there
    · exact fun op there => nomatch there
    · exact fun op there => nomatch there
    · exact fun cport buffer found => nomatch found
    · exact fun cport cport' buffer found => nomatch found
    · exact fun op there => nomatch there
  accounted := Slab.accounted_create c.positive rfl rfl rfl
  built := ⟨rfl, fun slab there => nomatch there⟩
  size := rfl
  nodup := nodup_nil
  alive := fun op there => nomatch there
  messages := fun entry there => nomatch there

theorem Orderly.remember (orderly : Orderly c s) (memory : Memory)
    (same : ∀ entry ∈ s.received ++ s.working, ∀ length ≤ GREYBUS_MTU,
      read memory (s.requestBuffer entry.op) length = read s.memory (s.requestBuffer entry.op) length) :
    Orderly c { s with memory := memory } where
  placed := orderly.placed
  accounted := orderly.accounted
  built := orderly.built
  size := orderly.size
  nodup := orderly.nodup
  alive := orderly.alive
  messages := by
    intro entry there
    obtain ⟨short, bytes⟩ := orderly.messages entry there
    exact ⟨short, (same entry there _ short).trans bytes⟩

/-- What a new operation is to the others -/
structure Creates (s : Machine) (op : ℕ) (bytes : List UInt8) (s' : Machine) : Prop where
  fresh : op ∉ s.operations
  live : op ∈ s'.opSlab.live
  received : s'.received = s.received
  working : s'.working = s.working
  held : s'.held = s.held
  installed : s'.installed = s.installed
  halted : s'.halted = s.halted
  memory : s'.memory = write s.memory (s'.requestBuffer op) bytes

theorem length_requestHeader (type : UInt8) (reqSize : ℕ) :
    (requestHeader type reqSize).length = reqSize + hdrSize := by
  simp only [requestHeader, hdrSize, length_append, length_le16Bytes, length_cons, length_nil,
    length_replicate]
  omega

variable {answers : ℕ → Answer}

theorem Orderly.create (orderly : Orderly c s) {type : UInt8} {reqSize : ℕ}
    (fits : reqSize + hdrSize ≤ GREYBUS_MTU) (created : gbOperationCreate s type reqSize answers = some (op, s')) :
    Orderly c s' ∧ Creates s op (requestHeader type reqSize) s' := by
  obtain ⟨opSlab, stepped, created⟩ := bind_eq_some_iff.mp created
  obtain ⟨found, given, created⟩ := bind_eq_some_iff.mp created
  obtain ⟨⟨store, requestBuffer⟩, constructed, same⟩ := map_eq_some_iff.mp created
  obtain ⟨rfl, rfl⟩ := Prod.mk.inj same
  have room := Slab.room_of_whole orderly.whole
  obtain ⟨live, fresh, effects, -⟩ := orderly.accounted.alloc_pages room stepped given
  obtain ⟨built, unused⟩ := orderly.built.alloc orderly.accounted orderly.whole stepped given
  obtain ⟨accounted, size⟩ := orderly.accounted.step room stepped
  obtain ⟨placed, kept, -⟩ := orderly.placed.ctors _ constructed
  rw [← Slab.constructed_append, ← effects] at placed
  have member (x : ℕ) (there : x ∈ s.opSlab.live) : x ∈ opSlab.live := by
    rw [live]
    exact mem_append_left _ there
  have new : found ∈ opSlab.live := by
    rw [live]
    exact mem_append_right _ (mem_singleton_self _)
  have whole : opSlab.cache.bufferSize = Slab.numObjects * opSlab.cache.size := by
    rw [Slab.Mcache.bufferSize, size, orderly.size]
    exact Nat.mod_eq_of_lt c.small
  have object (x : ℕ) (there : x ∈ opSlab.live) : x ∈ Slab.constructed opSlab.effects :=
    built.live accounted whole there
  refine ⟨⟨placed, accounted, built, size.trans orderly.size, orderly.nodup, ?_, ?_⟩, ?_⟩
  · intro x there
    exact member x (orderly.alive x there)
  · intro entry there
    obtain ⟨short, bytes⟩ := orderly.messages entry there
    have before := orderly.alive _ (mem_operations_of_entry there)
    have differs : entry.op ≠ found := fun same => fresh (same ▸ before)
    have buffers : requestBuffer entry.op ≠ requestBuffer found := by
      intro same
      exact differs (placed.once _ (object _ (member _ before)) _ (object _ new) same)
    refine ⟨short, ?_⟩
    change read (write s.memory (requestBuffer found) _) (requestBuffer entry.op) _ = _
    rw [placed.stocked.read_other (placed.owned _ (object _ (member _ before))) (placed.owned _ (object _ new)) buffers
      _ (by rw [length_requestHeader]; exact fits) short, kept _ fun made => unused _ made before]
    exact bytes
  · exact ⟨fun there => fresh (orderly.alive _ there), new, rfl, rfl, rfl, rfl, rfl, rfl⟩

theorem size_of_queues {cportMap : CportMap} {message : Message} (queued : queues cportMap message = true) :
    hdrSize ≤ le16 message.data 0 ∧ le16 message.data 0 ≤ message.data.length := by
  obtain ⟨accepted, -⟩ := Bool.and_eq_true_iff.mp queued
  unfold rxAccepts at accepted
  split at accepted
  · cases accepted
  · simp only [Bool.and_eq_true, decide_eq_true_eq] at accepted
    exact ⟨accepted.2, accepted.1.2⟩

theorem Orderly.rxHandler (orderly : Orderly c s) (tsb : c.transport = .tsb) {data size : ℕ}
    (current : s.installed cport = some data) (short : size ≤ GREYBUS_MTU)
    (stepped : greybusRxHandler c s cport data size answers = some s') : Orderly c s' := by
  simp only [greybusRxHandler] at stepped
  split at stepped
  · obtain rfl := some.inj stepped
    exact orderly
  · rename_i kept
    have queued : queues c.cportMap ⟨cport, read s.memory data size⟩ = true :=
      eq_true_of_ne_false fun dropped => kept (.inr dropped)
    obtain ⟨header, covered⟩ := size_of_queues queued
    dsimp only at header covered
    rw [length_read] at covered
    obtain ⟨⟨op, s₁⟩, created, stepped⟩ := bind_eq_some_iff.mp stepped
    obtain ⟨store, freed, stepped⟩ := bind_eq_some_iff.mp stepped
    obtain ⟨⟨buffer, store'⟩, allocated, same⟩ := map_eq_some_iff.mp stepped
    obtain ⟨orderly₁, creates⟩ := orderly.create (by omega) created
    have object := orderly₁.constructed creates.live
    have current₁ : s₁.installed cport = some data := by
      rw [creates.installed]
      exact current
    obtain ⟨placed, -⟩ := orderly₁.placed.switch object current₁ freed allocated
    simp only [uniproSwitchBuffer, tsb] at same
    subst same
    have away (x : ℕ) (there : x ∈ s₁.operations) : x ≠ op := by
      rintro rfl
      refine creates.fresh ?_
      unfold Machine.operations at there ⊢
      rwa [creates.received, creates.working, creates.held] at there
    have perm : (((s₁.received ++ [(⟨cport, op, read s.memory data size⟩ : Received)]) ++ s₁.working).map Received.op ++
        s₁.held).Perm (op :: s₁.operations) := by
      unfold Machine.operations
      simp only [map_append, map_cons, append_assoc, cons_append, nil_append]
      exact perm_middle
    refine ⟨placed, orderly₁.accounted, orderly₁.built, orderly₁.size, ?_, ?_, ?_⟩
    · refine perm.nodup_iff.mpr (nodup_cons.mpr ⟨fun there => away op there rfl, orderly₁.nodup⟩)
    · intro x there
      rcases mem_cons.mp (perm.mem_iff.mp there) with rfl | before
      · exact creates.live
      · exact orderly₁.alive x before
    · intro entry there
      change _ ∧ read s₁.memory (Function.update s₁.requestBuffer op data entry.op) _ = _
      have either : entry = (⟨cport, op, read s.memory data size⟩ : Received) ∨
          entry ∈ s₁.received ++ s₁.working := by
        simp only [mem_append, mem_singleton] at there ⊢
        tauto
      rcases either with rfl | before
      · rw [Function.update_self, length_read]
        have differ : data ≠ s₁.requestBuffer op := by
          intro same
          exact orderly₁.placed.separate op object cport (same ▸ current₁)
        refine ⟨short, ?_⟩
        rw [creates.memory]
        refine orderly₁.placed.stocked.read_other (orderly₁.placed.ports cport data current₁)
          (orderly₁.placed.owned op object) differ _ ?_ short
        rw [length_requestHeader]
        omega
      · rw [Function.update_of_ne (away _ (mem_operations_of_entry before))]
        exact orderly₁.messages entry before

theorem rxHandler_unqueued {data size : ℕ} (unqueued : queues c.cportMap ⟨cport, read s.memory data size⟩ = false) :
    greybusRxHandler c s cport data size answers = some s := by
  simp only [greybusRxHandler]
  rw [if_pos (.inr unqueued)]

section
variable (orderly : Orderly c s)
include orderly

theorem Orderly.irqRxEom (tsb : c.transport = .tsb) {data : ℕ} {bytes : List UInt8}
    (current : s.installed cport = some data) (short : bytes.length ≤ CPORT_BUF_SIZE)
    (stepped : greybusRxHandler c { s with memory := write s.memory data bytes } cport data bytes.length answers = some s') :
    Orderly c s' := by
  have fits : bytes.length ≤ GREYBUS_MTU := Nat.le_trans short (by decide)
  have received : Orderly c { s with memory := write s.memory data bytes } := by
    refine orderly.remember _ fun entry there length bound => ?_
    have live := orderly.alive _ (mem_operations_of_entry there)
    have differ : s.requestBuffer entry.op ≠ data := by
      intro same
      exact orderly.placed.separate _ (orderly.constructed live) cport (same ▸ current)
    exact orderly.placed.stocked.read_other (orderly.owned live) (orderly.placed.ports cport data current) differ _ fits
      bound
  exact received.rxHandler tsb current fits stepped

theorem Orderly.writeArea {purpose : Purpose} (there : (buffer, purpose) ∈ s.store.areas) (slab : purpose ≠ .slab)
    (port : purpose ≠ .cport) {bytes : List UInt8} (fits : bytes.length ≤ purpose.bytes) :
    Orderly c { s with memory := write s.memory buffer bytes } := by
  refine orderly.remember _ fun entry known length bound => ?_
  have live := orderly.alive _ (mem_operations_of_entry known)
  exact orderly.placed.stocked.read_area (orderly.owned live) there slab port _ fits bound

theorem Orderly.reserve {purpose : Purpose} {store : Store} (reserved : s.store.reserve buffer purpose = some store) :
    Orderly c { s with store := store } := by
  obtain ⟨stocked, slab, areas, -⟩ := orderly.placed.stocked.reserve reserved
  refine { orderly with placed := orderly.placed.restock stocked fun x owned => ?_ }
  unfold Store.Owned
  rw [slab, areas]
  exact owned.imp_right (mem_cons_of_mem _)

theorem Orderly.closeTape (buffer : ℕ) :
    Orderly c { s with store := { s.store with areas := s.store.areas.erase (buffer, .replay) } } := by
  refine { orderly with placed := orderly.placed.restock (orderly.placed.stocked.closeTape buffer) fun x owned => ?_ }
  refine owned.imp_right fun page => (mem_erase_of_ne ?_).mpr page
  intro same
  cases (Prod.mk.inj same).2

theorem Orderly.relist (received working : List Received) (held : List ℕ)
    (nodup : ((received ++ working).map Received.op ++ held).Nodup)
    (known : ∀ op ∈ (received ++ working).map Received.op ++ held, op ∈ s.operations)
    (entries : ∀ entry ∈ received ++ working, entry ∈ s.received ++ s.working) :
    Orderly c { s with received := received, working := working, held := held } where
  placed := orderly.placed
  accounted := orderly.accounted
  built := orderly.built
  size := orderly.size
  nodup := nodup
  alive := fun op there => orderly.alive op (known op there)
  messages := fun entry there => orderly.messages entry (entries entry there)

theorem Orderly.operationFree (live : op ∈ s.opSlab.live) (unused : op ∉ s.operations)
    (freed : operationFree s op = some s') : Orderly c s' := by
  obtain ⟨opSlab, stepped, rfl⟩ := map_eq_some_iff.mp freed
  obtain ⟨built, left, effects⟩ := orderly.built.free orderly.accounted live stepped
  obtain ⟨accounted, size⟩ := orderly.accounted.step (Slab.room_of_whole orderly.whole) stepped
  refine ⟨?_, accounted, built, size.trans orderly.size, orderly.nodup, ?_, orderly.messages⟩
  · rw [effects]
    exact orderly.placed
  · intro x there
    have differs : x ≠ op := by
      rintro rfl
      exact unused there
    rw [left]
    exact (mem_erase_of_ne differs).mpr (orderly.alive x there)

theorem Orderly.workerTake (stepped : workerTake s cport = some s') : Orderly c s' := by
  obtain ⟨-, stepped⟩ := ite_none_left_eq_some.mp stepped
  obtain ⟨entry, found, rfl⟩ := map_eq_some_iff.mp stepped
  have perm : (s.received.eraseP (·.cport = cport) ++ (s.working ++ [entry])).Perm (s.received ++ s.working) := by
    rw [← append_assoc]
    refine (perm_append_singleton _ _).trans ?_
    exact (perm_of_find found).symm.append_right s.working
  have operations := (perm.map Received.op).append_right s.held
  exact orderly.relist _ _ _ (operations.nodup_iff.mpr orderly.nodup) (fun op there => operations.mem_iff.mp there)
    fun entry there => perm.mem_iff.mp there

theorem Orderly.workerDestroy {attached : Bool} (stepped : workerDestroy s cport attached = some s') :
    Orderly c s' := by
  obtain ⟨entry, found, stepped⟩ := bind_eq_some_iff.mp stepped
  have perm : (s.received ++ s.working).Perm
      (entry :: (s.received ++ s.working.eraseP (·.cport = cport))) :=
    ((perm_of_find found).append_left s.received).trans perm_middle
  have operations : s.operations.Perm
      (entry.op :: ((s.received ++ s.working.eraseP (·.cport = cport)).map Received.op ++ s.held)) :=
    (perm.map Received.op).append_right s.held
  have entries (other : Received) (there : other ∈ s.received ++ s.working.eraseP (·.cport = cport)) :
      other ∈ s.received ++ s.working := perm.mem_iff.mpr (mem_cons_of_mem _ there)
  obtain ⟨unused, nodup⟩ := nodup_cons.mp (operations.nodup_iff.mp orderly.nodup)
  have live : entry.op ∈ s.opSlab.live :=
    orderly.alive _ (operations.mem_iff.mpr mem_cons_self)
  dsimp only at stepped
  split at stepped
  · obtain rfl := some.inj stepped
    have last : ((s.received ++ s.working.eraseP (·.cport = cport)).map Received.op ++ (s.held ++ [entry.op])).Perm
        s.operations := by
      rw [← append_assoc]
      exact (perm_append_singleton _ _).trans operations.symm
    exact orderly.relist _ _ _ (last.nodup_iff.mpr orderly.nodup) (fun op there => last.mem_iff.mp there) entries
  · have left := orderly.relist _ _ _ nodup
      (fun op there => operations.mem_iff.mpr (mem_cons_of_mem _ there)) entries
    exact left.operationFree live unused stepped

theorem Orderly.destroyHeld (there : op ∈ s.held)
    (freed : RxBuffer.operationFree { s with held := s.held.erase op } op = some s') : Orderly c s' := by
  have perm : s.operations.Perm (op :: ((s.received ++ s.working).map Received.op ++ s.held.erase op)) :=
    ((perm_cons_erase there).append_left _).trans perm_middle
  obtain ⟨unused, nodup⟩ := nodup_cons.mp (perm.nodup_iff.mp orderly.nodup)
  have live : op ∈ s.opSlab.live := orderly.alive op (perm.mem_iff.mpr mem_cons_self)
  have left := orderly.relist _ _ _ nodup (fun x member => perm.mem_iff.mpr (mem_cons_of_mem _ member))
    fun entry member => member
  exact left.operationFree live unused freed

theorem Orderly.createRequest {type : UInt8} {reqSize : ℕ} (fits : reqSize + hdrSize ≤ GREYBUS_MTU)
    (created : gbOperationCreate s type reqSize answers = some (op, s')) :
    Orderly c { s' with held := s'.held ++ [op] } := by
  obtain ⟨orderly', creates⟩ := orderly.create fits created
  have perm : ((s'.received ++ s'.working).map Received.op ++ (s'.held ++ [op])).Perm (op :: s'.operations) := by
    rw [← append_assoc]
    exact perm_append_singleton _ _
  have fresh : op ∉ s'.operations := by
    unfold Machine.operations
    rw [creates.received, creates.working, creates.held]
    exact creates.fresh
  refine ⟨orderly'.placed, orderly'.accounted, orderly'.built, orderly'.size, ?_, ?_, orderly'.messages⟩
  · exact perm.nodup_iff.mpr (nodup_cons.mpr ⟨fresh, orderly'.nodup⟩)
  · intro x there
    rcases mem_cons.mp (perm.mem_iff.mp there) with rfl | before
    · exact creates.live
    · exact orderly'.alive x before

theorem Orderly.fillRequest (there : op ∈ s.held) {bytes : List UInt8} (fits : bytes.length ≤ GREYBUS_MTU) :
    Orderly c { s with memory := write s.memory (s.requestBuffer op) bytes } := by
  have live : op ∈ s.opSlab.live := orderly.alive op (mem_append_right _ there)
  refine orderly.remember _ fun entry known length bound => ?_
  have also := orderly.alive _ (mem_operations_of_entry known)
  have differ : entry.op ≠ op := by
    have apart := (nodup_append.mp orderly.nodup).2.2
    exact apart _ (mem_map_of_mem known) _ there
  have buffers : s.requestBuffer entry.op ≠ s.requestBuffer op := by
    intro same
    exact differ (orderly.placed.once _ (orderly.constructed also) _ (orderly.constructed live) same)
  exact orderly.placed.stocked.read_other (orderly.owned also) (orderly.owned live) buffers _ fits bound

end

end Machine

/-- No message from a URB or a tape is queued or longer than its buffer, and no driver's request is longer than a
request buffer. -/
def InPlace (c : Config) (_ : Machine) : Step → Prop
  | .apbaUniproRxCb _ bytes listening _ => bytes.length ≤ Purpose.urb.bytes ∧
      (hdrSize ≤ bytes.length → listening = true → queues c.cportMap ⟨le16 bytes 6, bytes⟩ = false)
  | .readTape _ cport size bytes _ => bytes.length ≤ GREYBUS_MTU ∧
      (size = bytes.length → queues c.cportMap ⟨cport, bytes⟩ = false)
  | .createRequest _ reqSize _ => reqSize + hdrSize ≤ GREYBUS_MTU
  | .fillRequest _ bytes => bytes.length ≤ GREYBUS_MTU
  | _ => True

/-- A step in place keeps each buffer with one owner. -/
theorem Orderly.step {c : Config} {s s' : Machine} {action : Step} (orderly : Orderly c s)
    (inPlace : InPlace c s action) (stepped : step c s action = some s') : Orderly c s' := by
  obtain ⟨-, stepped⟩ := ite_none_left_eq_some.mp stepped
  cases action with
  | initCport cport buffer =>
    obtain ⟨-, stepped⟩ := ite_none_right_eq_some.mp stepped
    obtain ⟨store, reserved, rfl⟩ := map_eq_some_iff.mp stepped
    exact { orderly with placed := orderly.placed.initCport reserved cport }
  | createUrb buffer =>
    obtain ⟨-, stepped⟩ := ite_none_right_eq_some.mp stepped
    obtain ⟨store, reserved, rfl⟩ := map_eq_some_iff.mp stepped
    exact orderly.reserve reserved
  | irqRxEom cport bytes answers =>
    obtain ⟨⟨tsb, short⟩, stepped⟩ := ite_none_right_eq_some.mp stepped
    obtain ⟨data, current, stepped⟩ := bind_eq_some_iff.mp stepped
    exact orderly.irqRxEom tsb current short stepped
  | apbaUniproRxCb buffer bytes listening answers =>
    obtain ⟨⟨there, -⟩, stepped⟩ := ite_none_right_eq_some.mp stepped
    have written := orderly.writeArea there nofun nofun inPlace.1
    dsimp only at stepped
    rw [read_write_self] at stepped
    split at stepped
    · obtain rfl := some.inj stepped
      exact written
    · rename_i passes
      have long : hdrSize ≤ bytes.length := Nat.le_of_not_lt fun short => passes (.inl short)
      have listens : listening = true := eq_true_of_ne_false fun deaf => passes (.inr deaf)
      rw [rxHandler_unqueued (by rw [read_write_self]; exact inPlace.2 long listens)] at stepped
      obtain rfl := some.inj stepped
      exact written
  | openTape buffer =>
    obtain ⟨store, reserved, rfl⟩ := map_eq_some_iff.mp stepped
    exact orderly.reserve reserved
  | readTape buffer cport size bytes answers =>
    obtain ⟨⟨there, -⟩, stepped⟩ := ite_none_right_eq_some.mp stepped
    have written := orderly.writeArea there nofun nofun inPlace.1
    split at stepped
    · rename_i same
      subst same
      rw [rxHandler_unqueued (by rw [read_write_self]; exact inPlace.2 rfl)] at stepped
      obtain rfl := some.inj stepped
      exact written
    · obtain rfl := some.inj stepped
      exact written
  | closeTape buffer =>
    obtain ⟨-, rfl⟩ := ite_some_none_eq_some.mp stepped
    exact orderly.closeTape buffer
  | workerTake cport => exact orderly.workerTake stepped
  | workerDestroy cport attached => exact orderly.workerDestroy stepped
  | destroyHeld op =>
    obtain ⟨there, stepped⟩ := ite_none_right_eq_some.mp stepped
    exact orderly.destroyHeld there stepped
  | createRequest type reqSize answers =>
    obtain ⟨⟨op, s₁⟩, created, rfl⟩ := map_eq_some_iff.mp stepped
    exact orderly.createRequest inPlace created
  | fillRequest op bytes =>
    obtain ⟨there, rfl⟩ := ite_some_none_eq_some.mp stepped
    exact orderly.fillRequest there inPlace

/-- In every run that keeps messages in their place a receive buffer has one owner, and the worker finds in it the
message that was passed. -/
theorem greybus_buffers_have_one_owner (c : Config) (opSlab bufferSlab : ℕ) (actions : List Step) (final : Machine)
    (inPlace : Guarded (step c) (InPlace c) (.probed c opSlab bufferSlab) actions)
    (ran : run (step c) (.probed c opSlab bufferSlab) actions = some final) : OneOwner final := by
  have orderly : Orderly c final := run_invariant_of_guarded (Orderly c) (probed_orderly c opSlab bufferSlab) inPlace
    ran fun orderly => orderly.step
  exact orderly.oneOwner

/-- A bus whose cports all have a driver without a fast handler -/
def driven (transport : Transport) : Config where
  cportMap := fun _ => some ⟨some []⟩
  transport := transport
  operationSize := 100
  positive := by decide
  small := by decide

/-- The first operation needs a slab of each cache. -/
def firstSlabs : ℕ → Answer
  | 0 => (some 65536, some 4096)
  | 1 => (some 131072, some 4608)
  | _ => (none, none)

/-- A message without a payload -/
def ping : List UInt8 := [8, 0, 1, 0, 1, 0, 0, 0]

/-- The worker has taken the message of an interrupt. -/
theorem greybus_buffers_have_one_owner_interrupt :
    ∃ final, run (step (driven .tsb)) (.probed (driven .tsb) 1024 1536)
      [.initCport 3 262144, .irqRxEom 3 ping firstSlabs, .workerTake 3] = some final ∧
      final.working = [⟨3, 65536, ping⟩] ∧ OneOwner final := by
  refine exists_final (·.working) [⟨3, 65536, ping⟩] (by decide +kernel) fun final ran working => ?_
  refine ⟨working, greybus_buffers_have_one_owner (driven .tsb) 1024 1536 _ final ?_ ran⟩
  exact ⟨trivial, fun _ _ => ⟨trivial, fun _ _ => ⟨trivial, fun _ _ => trivial⟩⟩⟩

/-- Two records of a tape are queued with the one buffer of the replay, a replay that ends frees the buffer of an
operation, and a message from a URB is queued with the buffer of the URB. -/
theorem gb_tape_replay_shares_buffer :
    (∃ final, run (step (driven .tsb)) (.probed (driven .tsb) 1024 1536)
      [.openTape 262144, .readTape 262144 3 8 ping firstSlabs,
        .readTape 262144 3 8 ping fun _ => (none, none)] = some final ∧ ¬OneOwner final) ∧
    (∃ final, run (step (driven .tsb)) (.probed (driven .tsb) 1024 1536)
      [.openTape 262144, .readTape 262144 3 8 ping firstSlabs, .closeTape 262144] = some final ∧
      ¬OneOwner final) ∧
    ∃ final, run (step (driven .apba)) (.probed (driven .apba) 1024 1536)
      [.createUrb 262144, .apbaUniproRxCb 262144 ping true firstSlabs] = some final ∧ ¬OneOwner final := by
  refine ⟨?_, ?_, ?_⟩
  · refine exists_final (fun s => (s.buffer (.operation 65536), s.buffer (.operation 65636)))
      (some 262144, some 262144) (by decide +kernel) fun final ran both => ?_
    obtain ⟨first, second⟩ := Prod.mk.inj both
    exact fun owner => nomatch owner.distinct _ _ _ first second
  · refine exists_final (fun s => (s.opSlab.live, s.requestBuffer 65536, decide (262144 ∈ s.store.bufferSlab.live), s.store.areas))
      ([65536], 262144, false, [(131072, .slab)]) (by decide +kernel) fun final ran all => ?_
    obtain ⟨live, buffer, freed, areas⟩ : final.opSlab.live = [65536] ∧ final.requestBuffer 65536 = 262144 ∧
        decide (262144 ∈ final.store.bufferSlab.live) = false ∧ final.store.areas = [(131072, .slab)] := by
      simpa only [Prod.mk.injEq] using all
    intro owner
    rcases owner.unfreed 65536 (live ▸ List.mem_singleton_self _) with kept | ⟨purpose, -, there⟩
    · rw [buffer] at kept
      exact of_decide_eq_false freed kept
    · rw [buffer, areas] at there
      have same := (Prod.mk.inj (List.mem_singleton.mp there)).1
      exact absurd same (by decide)
  · refine exists_final (fun s => (s.buffer (.operation 65536), s.buffer (.urb 262144)))
      (some 262144, some 262144) (by decide +kernel) fun final ran both => ?_
    obtain ⟨first, second⟩ := Prod.mk.inj both
    exact fun owner => nomatch owner.distinct _ _ _ first second

end Phabos.RxBuffer
