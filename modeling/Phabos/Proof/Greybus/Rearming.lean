import Phabos.Library.Run
import Phabos.Construction.Greybus.Rearm

namespace Phabos.RxRearm
open Library Greybus RxBuffer Function List Option

/-- A buffer that a holder points to is in use, and no other holder points to it. -/
structure Distinct (used : List ℕ) (pointer : Holder → Pointer) : Prop where
  used : ∀ holder address, pointer holder = .buffer address → address ∈ used
  once : ∀ one other address, pointer one = .buffer address → pointer other = .buffer address → one = other

section Distinct
variable {used used' : List ℕ} {pointer : Holder → Pointer}

/-- A holder gets a buffer that was not in use. -/
theorem Distinct.give (distinct : Distinct used pointer) (holder : Holder) {given : Pointer}
    (more : ∀ address ∈ used, address ∈ used')
    (fresh : ∀ address, given = .buffer address → address ∉ used ∧ address ∈ used') :
    Distinct used' (update pointer holder given) := by
  obtain ⟨inUse, once⟩ := distinct
  constructor
  · intro other address there
    grind [update_apply]
  · intro one other address first second
    grind [update_apply]

/-- A holder gives its buffer to another one, whose own buffer is not in use any more. -/
theorem Distinct.move (distinct : Distinct used pointer) {taker giver : Holder} (apart : taker ≠ giver)
    (kept : ∀ address ∈ used, pointer taker ≠ .buffer address → address ∈ used') :
    Distinct used' (update (update pointer taker (pointer giver)) giver .null) := by
  obtain ⟨inUse, once⟩ := distinct
  constructor
  · intro other address there
    grind [update_apply]
  · intro one other address first second
    grind [update_apply]

end Distinct

section Pool
variable {pool pool' : Pool} {object : Object} {given : Pointer}

/-- The buffers of the pool are distinct. -/
abbrev Pool.Distinct (pool : Pool) : Prop := RxRearm.Distinct (pool.objects ++ pool.pages) pool.pointer

@[simp] theorem pointer_set (pool : Pool) (holder : Holder) (given : Pointer) :
    (pool.set holder given).pointer = update pool.pointer holder given := rfl

/-- `mcache_alloc` returns what was not in use. -/
theorem allocBuffer_used (allocated : pool.allocBuffer given = some pool') :
    pool'.pointer = pool.pointer ∧
      (∀ address ∈ pool.objects ++ pool.pages, address ∈ pool'.objects ++ pool'.pages) ∧
        ∀ address, given = .buffer address →
          address ∉ pool.objects ++ pool.pages ∧ address ∈ pool'.objects ++ pool'.pages := by
  cases given with
  | buffer address =>
    obtain ⟨unused, rfl⟩ := by simpa [Pool.allocBuffer] using allocated
    simp [unused]
    grind
  | null =>
    obtain rfl := some.inj allocated
    simp
  | stray address =>
    obtain rfl := some.inj allocated
    simp

/-- `mcache_free` leaves all other buffers in use. -/
theorem freeBuffer_used (pool : Pool) (freed : Pointer) :
    (pool.freeBuffer freed).pointer = pool.pointer ∧ ∀ address ∈ pool.objects ++ pool.pages,
      freed ≠ .buffer address → address ∈ (pool.freeBuffer freed).objects ++ (pool.freeBuffer freed).pages := by
  cases freed with
  | buffer address =>
    simp [Pool.freeBuffer]
    grind
  | null => simp [Pool.freeBuffer]
  | stray address => simp [Pool.freeBuffer]

/-- An operation that is constructed gets a buffer, and the cports keep theirs. -/
theorem operationCtors_distinct {objects : List (ℕ × Pointer)} (distinct : pool.Distinct)
    (constructed : operationCtors pool objects = some pool') :
    pool'.Distinct ∧ ∀ cport, pool'.pointer (.cport cport) = pool.pointer (.cport cport) := by
  induction objects generalizing pool with
  | nil =>
    obtain rfl := some.inj constructed
    exact ⟨distinct, fun _ => rfl⟩
  | cons first others inductionHypothesis =>
    obtain ⟨-, constructed⟩ := ite_none_left_eq_some.mp constructed
    obtain ⟨middle, allocated, constructed⟩ := bind_eq_some_iff.mp constructed
    obtain ⟨same, more, fresh⟩ := allocBuffer_used allocated
    have given := RxRearm.Distinct.give distinct (.operation first.1) more fresh
    rw [← same] at given
    obtain ⟨last, kept⟩ := inductionHypothesis given constructed
    exact ⟨last, fun cport => by simpa [same] using kept cport⟩

theorem allocOperation_distinct {op : Option ℕ} (distinct : pool.Distinct)
    (allocated : pool.allocOperation object = some (op, pool')) :
    pool'.Distinct ∧ ∀ cport, pool'.pointer (.cport cport) = pool.pointer (.cport cport) := by
  cases object with
  | null => grind [Pool.allocOperation]
  | free op => grind [Pool.allocOperation]
  | slab op requestBuffer others =>
    obtain ⟨-, allocated⟩ := ite_none_right_eq_some.mp allocated
    obtain ⟨built, constructed, same⟩ := map_eq_some_iff.mp allocated
    obtain ⟨-, rfl⟩ := Prod.mk.inj same
    obtain ⟨last, kept⟩ := operationCtors_distinct distinct constructed
    exact ⟨last, kept⟩
  | stray => grind [Pool.allocOperation]

theorem gbOperationCreate_distinct {op : Option ℕ} (distinct : pool.Distinct)
    (created : gbOperationCreate pool object = some (op, pool')) :
    pool'.Distinct ∧ ∀ cport, pool'.pointer (.cport cport) = pool.pointer (.cport cport) := by
  obtain ⟨⟨op, middle⟩, allocated, created⟩ := map_eq_some_iff.mp created
  have kept := allocOperation_distinct distinct allocated
  grind

/-- The operation of a message takes over its buffer, and the cport gets another one. -/
theorem Pool.Distinct.exchange (distinct : pool.Distinct) (op cport : ℕ) {taken : Pool}
    (allocated : ((pool.freeBuffer (pool.pointer (.operation op))).set (.operation op)
      (pool.pointer (.cport cport))).allocBuffer given = some taken) :
    (taken.set (.cport cport) given).Distinct ∧
      ∀ other ≠ cport, (taken.set (.cport cport) given).pointer (.cport other) = pool.pointer (.cport other) := by
  obtain ⟨same, kept⟩ := freeBuffer_used pool (pool.pointer (.operation op))
  obtain ⟨pointer, more, fresh⟩ := allocBuffer_used allocated
  have moved := RxRearm.Distinct.move distinct (nofun : Holder.operation op ≠ .cport cport) kept
  have last := moved.give (.cport cport) more fresh
  rw [update_idem] at last
  refine ⟨?_, fun other apart => by simp [pointer, same, apart]⟩
  unfold Pool.Distinct
  rw [pointer_set, pointer, pointer_set, same]
  exact last

end Pool

section Machine
variable {cportMap : CportMap} {s s' : Machine} {cport : ℕ} {object : Object} {next : Pointer}

/-- What holds in every state of a run whose messages are served. -/
structure Sound (s : Machine) : Prop where
  distinct : s.pool.Distinct
  once : ∀ interrupt ∈ s.interrupts, ∃ address, interrupt.unpauses = [(interrupt.cport, .buffer address)]
  flowing : ∀ cport, s.connected cport = true → s.paused cport = false
  current : ∀ cport, s.connected cport = true → (s.pool.pointer (.cport cport)).valid = true

theorem valid_iff {pointer : Pointer} : pointer.valid = true ↔ ∃ address, pointer = .buffer address := by
  cases pointer <;> simp [Pointer.valid]

theorem Sound.rearmed (sound : Sound s) : Rearmed s := by
  refine ⟨sound.once, sound.flowing, fun cport connected => ?_⟩
  obtain ⟨address, current⟩ := valid_iff.mp (sound.current cport connected)
  refine ⟨address, current, sound.distinct.used _ address current, fun holder held => ?_⟩
  exact sound.distinct.once holder _ address held current

/-- An interrupt whose message is served leaves its cport with a new buffer. -/
theorem Sound.irqRxEom (sound : Sound s) {message : List UInt8} (connected : s.connected cport = true)
    (served : Served cportMap s (.irqRxEom cport message object next))
    (stepped : RxRearm.irqRxEom s cport cportMap message object next = some s') : Sound s' := by
  obtain ⟨queued, valid, taken⟩ := served
  obtain ⟨data, current⟩ := valid_iff.mp (sound.current cport connected)
  obtain ⟨⟨op, pool⟩, created, taken⟩ := (any_eq_true _ _).mp taken
  obtain ⟨op, rfl⟩ := isSome_iff_exists.mp taken
  obtain ⟨distinct, ports⟩ := gbOperationCreate_distinct sound.distinct created
  obtain ⟨handled, handles, rfl⟩ := map_eq_some_iff.mp stepped
  simp only [greybusRxHandler, current, queued, reduceCtorEq, Bool.true_eq_false, false_or, ↓reduceIte, created,
    Option.bind_some] at handles
  obtain ⟨taken, allocated, rfl⟩ := map_eq_some_iff.mp handles
  rw [← current, ← ports cport] at allocated
  obtain ⟨last, kept⟩ := distinct.exchange op cport allocated
  obtain ⟨-, once, flowing, current⟩ := sound
  simp only [Machine.switchBuffer, Machine.unpauseRx, connected, if_true]
  refine ⟨last, ?_, ?_, ?_⟩
  · intro interrupt there
    obtain ⟨address, rfl⟩ := valid_iff.mp valid
    cases mem_append.mp there with
    | inl before => exact once interrupt before
    | inr new => exact ⟨address, by simp [mem_singleton.mp new]⟩
  · grind [update_apply]
  · intro other also
    by_cases same : other = cport
    · simp [Pool.set, same, valid]
    · simpa [kept other same, ports] using current other also

/-- A cport that is not connected gets its first buffer. -/
theorem Sound.initCport (sound : Sound s) (unconnected : s.connected cport = false)
    (stepped : tsbUniproInitCport s cport next = some s') : Sound s' := by
  have others {pool : Pool} (same : pool.pointer = s.pool.pointer) (other : ℕ) (connected : s.connected other = true) :
      ((s.switchBuffer cport pool next).pool.pointer (.cport other)).valid = true := by
    have apart : other ≠ cport := fun same => by simp [same, unconnected] at connected
    simpa [Machine.switchBuffer, apart, same] using sound.current other connected
  cases next with
  | null =>
    obtain rfl := some.inj stepped
    exact sound
  | buffer address =>
    obtain ⟨unused, stepped⟩ := ite_none_left_eq_some.mp stepped
    obtain rfl := some.inj stepped
    refine ⟨sound.distinct.give _ ?_ ?_, sound.once, sound.flowing, others rfl⟩
    · grind [Machine.switchBuffer, Pool.set]
    · grind [Machine.switchBuffer, Pool.set]
  | stray address =>
    obtain rfl := some.inj stepped
    exact ⟨sound.distinct.give _ (fun _ there => there) nofun, sound.once, sound.flowing, others rfl⟩

theorem Sound.step (sound : Sound s) {action : Step} (served : Served cportMap s action)
    (stepped : RxRearm.step cportMap s action = some s') : Sound s' := by
  obtain ⟨-, stepped⟩ := ite_none_left_eq_some.mp stepped
  cases action with
  | initCport cport page =>
    obtain ⟨unconnected, stepped⟩ := ite_none_left_eq_some.mp stepped
    exact sound.initCport (by simpa using unconnected) stepped
  | connect cport =>
    obtain ⟨_, stepped⟩ := ite_none_left_eq_some.mp stepped
    obtain rfl := some.inj stepped
    obtain ⟨distinct, once, flowing, current⟩ := sound
    refine ⟨distinct, once, ?_, ?_⟩
    · grind [update_apply]
    · grind [Served, update_apply]
  | irqRxEom cport message object next =>
    obtain ⟨⟨connected, _, _⟩, stepped⟩ := ite_none_right_eq_some.mp stepped
    exact sound.irqRxEom connected served stepped
  | createRequest object =>
    obtain ⟨⟨op, pool⟩, created, rfl⟩ := map_eq_some_iff.mp stepped
    obtain ⟨distinct, ports⟩ := gbOperationCreate_distinct sound.distinct created
    exact ⟨distinct, sound.once, sound.flowing, by simpa [ports] using sound.current⟩
  | destroy op =>
    obtain ⟨_, rfl⟩ := ite_some_none_eq_some.mp stepped
    exact { sound with }

theorem sound_gbProbe : Sound gbProbe := ⟨⟨nofun, nofun⟩, nofun, nofun, nofun⟩

end Machine

/-- In every run whose messages are all queued, with an operation and a buffer for the next message, reception is re-armed
after each interrupt. -/
theorem reception_rearmed (cportMap : CportMap) (actions : List Step) (final : Machine)
    (served : Guarded (step cportMap) (Served cportMap) gbProbe actions)
    (ran : run (step cportMap) gbProbe actions = some final) : Rearmed final :=
  (run_invariant_of_guarded Sound sound_gbProbe served ran fun sound => sound.step).rearmed

/-- A driver with one handler, which is not a fast one -/
def oneDriver : CportMap := fun _ => some ⟨some [⟨1, .ret 0, false⟩]⟩

/-- A slab of five operations -/
def fiveOperations : Object :=
  .slab 65536 (.buffer 131072) [(65636, .buffer 133120), (65736, .buffer 135168), (65836, .buffer 137216),
    (65936, .buffer 139264)]

/-- A message on cport 3 that gets the first of them, whose buffer goes to the cport -/
def firstMessage : List Step :=
  [.initCport 3 (.buffer 262144), .connect 3, .irqRxEom 3 [8, 0, 1, 0, 1, 0, 0, 0] fiveOperations (.buffer 131072)]

theorem reception_rearmed_two :
    ∃ final, run (step oneDriver) gbProbe
      (firstMessage ++ [.irqRxEom 3 [9, 0, 2, 0, 1, 0, 0, 0, 7] (.free 65636) (.buffer 133120)]) = some final ∧
      final.interrupts = [⟨3, [(3, .buffer 131072)]⟩, ⟨3, [(3, .buffer 133120)]⟩] ∧ Rearmed final := by
  refine exists_final (·.interrupts) [⟨3, [(3, .buffer 131072)]⟩, ⟨3, [(3, .buffer 133120)]⟩] (by decide +kernel)
    fun final ran interrupts => ?_
  refine ⟨interrupts, reception_rearmed oneDriver _ final ?_ ran⟩
  decide +kernel

/-- After the first message one of one byte leaves the cport paused. Another one gets the operation of the first message,
which was destroyed and has a page, when no pages are left: the cport goes on with an address behind all memory. -/
theorem greybus_rx_handler_leaves_paused :
    (∃ final, run (step oneDriver) gbProbe (firstMessage ++ [.irqRxEom 3 [8] .null .null]) = some final ∧
      final.interrupts = [⟨3, [(3, .buffer 131072)]⟩, ⟨3, []⟩] ∧ final.paused 3 = true ∧ ¬Rearmed final) ∧
    ∃ final, run (step oneDriver) gbProbe (firstMessage ++
        [.destroy 65536, .irqRxEom 3 [8, 0, 2, 0, 1, 0, 0, 0] (.free 65536) (.stray 0xfffffff0)]) = some final ∧
      final.interrupts = [⟨3, [(3, .buffer 131072)]⟩, ⟨3, [(3, .stray 0xfffffff0)]⟩] ∧ ¬Rearmed final := by
  refine ⟨?_, ?_⟩
  · refine exists_final (fun s => (s.interrupts, s.paused 3))
      ([⟨3, [(3, .buffer 131072)]⟩, ⟨3, []⟩], true) (by decide +kernel) fun final ran same => ?_
    obtain ⟨interrupts, paused⟩ := Prod.mk.inj same
    refine ⟨interrupts, paused, fun rearmed => ?_⟩
    simpa [interrupts] using rearmed.once
  · refine exists_final (·.interrupts) [⟨3, [(3, .buffer 131072)]⟩, ⟨3, [(3, .stray 0xfffffff0)]⟩] (by decide +kernel)
      fun final ran interrupts => ?_
    refine ⟨interrupts, fun rearmed => ?_⟩
    simpa [interrupts] using rearmed.once

end Phabos.RxRearm
