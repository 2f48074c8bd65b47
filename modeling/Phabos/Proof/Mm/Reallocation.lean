import Phabos.Proof.Mm.HeaderRoom

namespace Phabos.Mm
open Library Library.ByteMemory
variable {regions : List MmRegion}

/-- The blocks are a heap, and all of them have room for their headers. -/
structure Bytes.Sound (regions : List MmRegion) (s : Bytes) : Prop where
  invariant : s.system.HeapInvariant regions
  room : s.system.heap.Room
  large : ∀ ptr ∈ s.system.held, 4 ≤ (s.system.heap.buffer (ptr - bufferSize)).bucket

/-- A block in use keeps its header and its bytes. -/
def Bytes.Keeps (s next : Bytes) (ptr : Nat) : Prop :=
  ptr ∈ next.system.held ∧ next.system.heap.buffer (ptr - bufferSize) = s.system.heap.buffer (ptr - bufferSize) ∧
    ∀ position < s.capacity ptr, next.bytes (ptr + position) = s.bytes (ptr + position)

section Headers
variable {held : Finset Nat} {s : Heap} {ptr address : Nat}

theorem not_inHeader (consistent : (System.mk s held).Consistent regions) (room : s.Room) (inside : ptr ∈ held)
    (low : ptr ≤ address) (high : address < ptr - bufferSize + 2 ^ (s.buffer (ptr - bufferSize)).bucket) :
    ¬s.InHeader address := by
  rintro ⟨bucket, -, block, listed, first, last⟩
  have large := consistent.pointers ptr inside
  have there : ptr - bufferSize + bufferSize ∈ held := by rwa [Nat.sub_add_cancel large]
  have header : bufferSize ≤ 2 ^ bucket := Nat.pow_le_pow_right (by decide : 0 < 2) (room bucket block listed).1
  have same := consistent.tiling.apart _ _ _ _ address (consistent.layout_free listed) (consistent.layout_held there)
    (mem_extent.mpr ⟨first, by dsimp only; omega⟩) (mem_extent.mpr ⟨by omega, high⟩)
  exact consistent.apart bucket block listed (same ▸ there)

theorem not_other_header (consistent : (System.mk s held).Consistent regions) {other : Nat} (inside : ptr ∈ held)
    (also : other ∈ held) (different : other ≠ ptr) (header : 4 ≤ (s.buffer (other - bufferSize)).bucket)
    (low : ptr ≤ address) (high : address < ptr - bufferSize + 2 ^ (s.buffer (ptr - bufferSize)).bucket) :
    ¬(other - bufferSize ≤ address ∧ address < other) := by
  rintro ⟨first, last⟩
  have large := consistent.pointers ptr inside
  have largeOther := consistent.pointers other also
  have there : ptr - bufferSize + bufferSize ∈ held := by rwa [Nat.sub_add_cancel large]
  have thereOther : other - bufferSize + bufferSize ∈ held := by rwa [Nat.sub_add_cancel largeOther]
  have room : bufferSize ≤ 2 ^ (s.buffer (other - bufferSize)).bucket := Nat.pow_le_pow_right (by decide : 0 < 2) header
  have same := consistent.tiling.apart _ _ _ _ address (consistent.layout_held thereOther)
    (consistent.layout_held there) (mem_extent.mpr ⟨first, by dsimp only; omega⟩)
    (mem_extent.mpr ⟨by omega, high⟩)
  exact different (by omega)

end Headers

section Calls
variable {s : Bytes} {size : BitVec 32} {ptr : Nat}

theorem Bytes.Sound.writeHeaders {after : Bytes} (sound : s.Sound regions) (sound' : after.Sound regions)
    (before : ptr ∈ s.system.held) (still : ptr ∈ after.system.held)
    (header : after.system.heap.buffer (ptr - bufferSize) = s.system.heap.buffer (ptr - bufferSize))
    {other : Nat} (own : ∀ address, ptr ≤ address →
      address < ptr - bufferSize + 2 ^ (s.system.heap.buffer (ptr - bufferSize)).bucket →
      ¬(other - bufferSize ≤ address ∧ address < other)) (headers bytes : Memory) {position : Nat}
    (bound : position < s.capacity ptr) :
    Mm.writeHeaders s.system.heap after.system.heap other headers bytes (ptr + position) = bytes (ptr + position) := by
  have large := sound.invariant.consistent.pointers ptr before
  unfold Bytes.capacity at bound
  have last : ptr + position < ptr - bufferSize + 2 ^ (s.system.heap.buffer (ptr - bufferSize)).bucket := by omega
  unfold Mm.writeHeaders
  rw [if_neg]
  rintro (first | second | third)
  · exact not_inHeader sound.invariant.consistent sound.room before (Nat.le_add_right ..) last first
  · exact not_inHeader sound'.invariant.consistent sound'.room still (Nat.le_add_right ..) (header ▸ last) second
  · exact own _ (Nat.le_add_right ..) last third

theorem Bytes.Sound.denied (sound : s.Sound regions) {heap : Heap}
    (invariant : (System.mk heap s.system.held).HeapInvariant regions) (room : heap.Room)
    (same : heap.buffer = s.system.heap.buffer) (headers : Memory) :
    let next : Bytes := ⟨⟨heap, s.system.held⟩, Mm.writeHeaders s.system.heap heap 0 headers s.bytes⟩
    next.Sound regions ∧ ∀ ptr ∈ s.system.held, s.Keeps next ptr := by
  have sound' (bytes : Memory) : (Bytes.mk ⟨heap, s.system.held⟩ bytes).Sound regions := by
    refine ⟨invariant, room, fun ptr inside => ?_⟩
    dsimp only
    rw [same]
    exact sound.large ptr inside
  refine ⟨sound' _, fun ptr inside => ⟨inside, congrFun same _, fun position bound => ?_⟩⟩
  exact sound.writeHeaders (sound' s.bytes) inside inside (congrFun same _)
    (fun address _ _ own => Nat.not_lt_zero _ own.2) headers s.bytes bound

theorem Bytes.Sound.granted (sound : s.Sound regions) {heap next : Heap} {block order : Nat} {flags : BitVec 32}
    (allocated : Allocated regions s.system.held order flags heap block next)
    (same : heap.buffer = s.system.heap.buffer) (room : next.Room) (large : 4 ≤ order) (headers : Memory) :
    let after : Bytes := ⟨⟨next, insert (block + bufferSize) s.system.held⟩,
      Mm.writeHeaders s.system.heap next (block + bufferSize) headers s.bytes⟩
    after.Sound regions ∧ ∀ ptr ∈ s.system.held, s.Keeps after ptr := by
  have consistent := sound.invariant.consistent
  have header (ptr : Nat) (inside : ptr ∈ s.system.held) :
      next.buffer (ptr - bufferSize) = s.system.heap.buffer (ptr - bufferSize) := by
    rw [← same]
    refine allocated.frame.header (ptr - bufferSize) ?_
    change ptr - bufferSize + bufferSize ∈ s.system.held
    rwa [Nat.sub_add_cancel (consistent.pointers ptr inside)]
  have sound' (bytes : Memory) :
      (Bytes.mk ⟨next, insert (block + bufferSize) s.system.held⟩ bytes).Sound regions := by
    refine ⟨allocated.kept, room, fun ptr inside => ?_⟩
    dsimp only at inside ⊢
    rcases Finset.mem_insert.mp inside with rfl | old
    · rw [Nat.add_sub_cancel, allocated.bucket]
      exact large
    · rw [header ptr old]
      exact sound.large ptr old
  refine ⟨sound' _, fun ptr inside => ⟨Finset.mem_insert_of_mem inside, header ptr inside, fun position bound => ?_⟩⟩
  refine sound.writeHeaders (sound' s.bytes) inside (Finset.mem_insert_of_mem inside) (header ptr inside)
    (fun address low high => ?_) headers s.bytes bound
  have different : block + bufferSize ≠ ptr := by
    rintro rfl
    exact allocated.fresh inside
  refine not_other_header allocated.kept.consistent (Finset.mem_insert_of_mem inside) (Finset.mem_insert_self _ _)
    different ?_ low ?_
  · rw [Nat.add_sub_cancel, allocated.bucket]
    exact large
  · rwa [header ptr inside]

/-- A request that does not wrap is denied, or gets a new block with room for it; the blocks in use keep their bytes. -/
theorem Bytes.Sound.kmalloc (sound : s.Sound regions) (short : size.toNat + bufferSize < 2 ^ 32) (headers : Memory) :
    (s.kmalloc headers size).2.Sound regions ∧ (∀ ptr ∈ s.system.held, s.Keeps (s.kmalloc headers size).2 ptr) ∧
      ((s.kmalloc headers size).1 = 0 ∧ (s.kmalloc headers size).2.system.held = s.system.held ∨
        (s.kmalloc headers size).1 ≠ 0 ∧ (s.kmalloc headers size).1 ∉ s.system.held ∧
          (s.kmalloc headers size).2.system.held = insert (s.kmalloc headers size).1 s.system.held ∧
          size.toNat ≤ (s.kmalloc headers size).2.capacity (s.kmalloc headers size).1) := by
  have outcome := kmalloc_outcome sound.invariant size 0
  have room := sound.room.kmalloc sound.invariant short 0
  have nothing {heap : Heap} (returned : Mm.kmalloc s.system.heap size 0 = (0, heap))
      (invariant : (System.mk heap s.system.held).HeapInvariant regions)
      (same : heap.buffer = s.system.heap.buffer) :
      (s.kmalloc headers size).2.Sound regions ∧ (∀ ptr ∈ s.system.held, s.Keeps (s.kmalloc headers size).2 ptr) ∧
        (s.kmalloc headers size).1 = 0 ∧ (s.kmalloc headers size).2.system.held = s.system.held := by
    rw [returned] at room
    obtain ⟨kept, keeps⟩ := sound.denied invariant room same headers
    unfold Bytes.kmalloc
    rw [returned]
    exact ⟨kept, keeps, rfl, rfl⟩
  by_cases empty : size = 0
  · rw [if_pos empty] at outcome
    obtain ⟨kept, keeps, null⟩ := nothing outcome sound.invariant rfl
    exact ⟨kept, keeps, .inl null⟩
  rw [if_neg empty] at outcome
  split at outcome
  · obtain ⟨block, next, returned, allocated⟩ := outcome
    have large := four_lt_requestOrder empty short
    rw [returned] at room
    obtain ⟨kept, keeps⟩ := sound.granted allocated rfl room (Nat.le_of_lt large) headers
    have nonNull : block + bufferSize ≠ 0 := by
      unfold bufferSize
      omega
    have enough := Nat.le_pow_clog (by decide : 1 < 2) (size.toNat + bufferSize)
    rw [← requestOrder_eq_clog short, ← allocated.bucket] at enough
    unfold Bytes.kmalloc
    rw [returned]
    dsimp only
    rw [if_neg nonNull]
    refine ⟨kept, keeps, .inr ⟨nonNull, allocated.fresh, rfl, ?_⟩⟩
    unfold Bytes.capacity
    dsimp only
    rw [Nat.add_sub_cancel]
    omega
  · obtain ⟨kept, keeps, null⟩ := nothing outcome (sound.invariant.counted _) rfl
    exact ⟨kept, keeps, .inl null⟩

theorem Bytes.Sound.kfree (sound : s.Sound regions) (inside : ptr ∈ s.system.held) (headers : Memory) :
    (s.kfree headers ptr).Sound regions ∧
      ∀ other ∈ s.system.held, other ≠ ptr → s.Keeps (s.kfree headers ptr) other := by
  have consistent := sound.invariant.consistent
  have enough := consistent.pointers ptr inside
  obtain ⟨block, rfl⟩ : ∃ block, ptr = block + bufferSize := ⟨ptr - bufferSize, by omega⟩
  have frame := kfree_frame sound.invariant inside
  have header (other : Nat) (there : other ∈ s.system.held) (different : other ≠ block + bufferSize) :
      (Mm.kfree s.system.heap (block + bufferSize)).buffer (other - bufferSize) =
        s.system.heap.buffer (other - bufferSize) := by
    refine frame.header (other - bufferSize) ?_
    change other - bufferSize + bufferSize ∈ s.system.held.erase (block + bufferSize)
    rw [Nat.sub_add_cancel (consistent.pointers other there)]
    exact Finset.mem_erase.mpr ⟨different, there⟩
  have large := sound.large _ inside
  have apart (bucket : Nat) : block ∉ s.system.heap.mmBucket bucket :=
    fun listed => consistent.apart bucket block listed inside
  have sound' (bytes : Memory) : (Bytes.mk ⟨Mm.kfree s.system.heap (block + bufferSize),
      s.system.held.erase (block + bufferSize)⟩ bytes).Sound regions := by
    refine ⟨kfree_keeps inside sound.invariant, sound.room.kfree (by rwa [Nat.add_sub_cancel] at large) apart,
      fun other there => ?_⟩
    obtain ⟨different, old⟩ := Finset.mem_erase.mp there
    dsimp only
    rw [header other old different]
    exact sound.large other old
  refine ⟨sound' _, fun other there different => ?_⟩
  have still := Finset.mem_erase.mpr ⟨different, there⟩
  exact ⟨still, header other there different, fun position bound =>
    sound.writeHeaders (sound' s.bytes) there still (header other there different)
      (fun address low high => not_other_header consistent there inside different.symm large low high) headers s.bytes
      bound⟩

end Calls

/-- `realloc` fails and leaves the block, or moves its bytes to a new block and releases it; the other blocks keep
their bytes. -/
def Bytes.Reallocated (s : Bytes) (ptr : Nat) (size : BitVec 32) (result : Nat × Bytes) : Prop :=
  (result.1 = 0 ∧ result.2.system.held = s.system.held ∧ s.Keeps result.2 ptr ∨
    result.1 ≠ 0 ∧ result.1 ∉ s.system.held ∧ result.2.system.held = insert result.1 (s.system.held.erase ptr) ∧
      size.toNat ≤ result.2.capacity result.1 ∧ ∀ position < min (s.capacity ptr) size.toNat,
        result.2.bytes (result.1 + position) = s.bytes (ptr + position)) ∧
    ∀ other ∈ s.system.held, other ≠ ptr → s.Keeps result.2 other

section Realloc
variable {s : Bytes} {size : BitVec 32} {ptr : Nat}

theorem Bytes.Keeps.capacity {next : Bytes} (keeps : s.Keeps next ptr) : next.capacity ptr = s.capacity ptr := by
  unfold Bytes.capacity
  rw [keeps.2.1]

theorem Bytes.Keeps.trans {middle next : Bytes} (first : s.Keeps middle ptr) (second : middle.Keeps next ptr) :
    s.Keeps next ptr := by
  obtain ⟨-, header, bytes⟩ := first
  obtain ⟨still, later, kept⟩ := second
  refine ⟨still, later.trans header, fun position bound => (kept position ?_).trans (bytes position bound)⟩
  unfold Bytes.capacity at bound ⊢
  rw [header]
  exact bound

theorem memcpy_inside (bytes : Memory) (dest source : Nat) {length position : Nat} (bound : position < length) :
    memcpy bytes dest source length (dest + position) = bytes (source + position) := by
  unfold memcpy write ByteMemory.read
  rw [if_pos (Nat.le_add_right ..), Nat.add_sub_cancel_left]
  simp [bound]

variable {regions : List MmRegion}

theorem memcpy_keeps (sound : s.Sound regions) {other source length : Nat}
    (inside : ptr ∈ s.system.held) (also : other ∈ s.system.held) (different : other ≠ ptr)
    (fits : length ≤ s.capacity ptr) : s.Keeps { s with bytes := memcpy s.bytes ptr source length } other := by
  refine ⟨also, rfl, fun position bound => ?_⟩
  refine write_outside ?_
  rw [length_read]
  by_contra covered
  have consistent := sound.invariant.consistent
  have large := consistent.pointers ptr inside
  have largeOther := consistent.pointers other also
  have there : ptr - bufferSize + bufferSize ∈ s.system.held := by rwa [Nat.sub_add_cancel large]
  have thereOther : other - bufferSize + bufferSize ∈ s.system.held := by rwa [Nat.sub_add_cancel largeOther]
  unfold Bytes.capacity at bound fits
  have same := consistent.tiling.apart _ _ _ _ (other + position) (consistent.layout_held thereOther)
    (consistent.layout_held there) (mem_extent.mpr ⟨by omega, by dsimp only; omega⟩)
    (mem_extent.mpr ⟨by omega, by dsimp only; omega⟩)
  exact different (by omega)

theorem Bytes.Sound.oldSize (sound : s.Sound regions) (inside : ptr ∈ s.system.held) :
    (orderToSize (s.system.heap.buffer (ptr - bufferSize)).bucket - BitVec.ofNat 32 bufferSize).toNat =
      s.capacity ptr := by
  have consistent := sound.invariant.consistent
  have large := consistent.pointers ptr inside
  have there : ptr - bufferSize + bufferSize ∈ s.system.held := by rwa [Nat.sub_add_cancel large]
  have small := (consistent.tile_bounds (consistent.layout_held there)).1
  have header : bufferSize ≤ 2 ^ (s.system.heap.buffer (ptr - bufferSize)).bucket :=
    Nat.pow_le_pow_right (by decide : 0 < 2) (sound.large ptr inside)
  have power := orderToSize_toNat _ small
  have bytes : (BitVec.ofNat 32 bufferSize).toNat = bufferSize := by decide
  have enough : (BitVec.ofNat 32 bufferSize).toNat ≤
      (orderToSize (s.system.heap.buffer (ptr - bufferSize)).bucket).toNat := by
    rw [bytes, power]
    exact header
  rw [BitVec.toNat_sub_of_le enough, power, bytes]
  rfl

theorem Bytes.Sound.wrapReallocR (sound : s.Sound regions) (inside : ptr ∈ s.system.held)
    (short : size.toNat + bufferSize < 2 ^ 32) (headers freed : Memory) :
    (wrapReallocR s headers freed ptr size).2.Sound regions ∧
      s.Reallocated ptr size (wrapReallocR s headers freed ptr size) := by
  obtain ⟨kept, keeps, outcome⟩ := sound.kmalloc short headers
  have consistent := sound.invariant.consistent
  have real : ptr ≠ 0 := by
    have large := consistent.pointers ptr inside
    unfold bufferSize at large
    omega
  unfold Mm.wrapReallocR
  generalize s.kmalloc headers size = result at kept keeps outcome ⊢
  obtain ⟨newptr, middle⟩ := result
  dsimp only at kept keeps outcome ⊢
  rw [if_neg real]
  rcases outcome with ⟨rfl, same⟩ | ⟨nonNull, fresh, added, room⟩
  · rw [if_pos rfl]
    exact ⟨kept, .inl ⟨rfl, same, keeps ptr inside⟩, fun other there _ => keeps other there⟩
  · have still := (keeps ptr inside).1
    have alone : middle.system.heap.prevIsNext (ptr - bufferSize) := by
      intro bucket _ listed
      have large := consistent.pointers ptr inside
      refine absurd still ?_
      have apart := kept.invariant.consistent.apart bucket _ listed
      rwa [Nat.sub_add_cancel large] at apart
    have given : newptr ∈ middle.system.held := added ▸ Finset.mem_insert_self _ _
    have different : ptr ≠ newptr := by
      rintro rfl
      exact fresh inside
    have sameCapacity := (keeps ptr inside).capacity
    have fits : min (middle.capacity ptr) size.toNat ≤ middle.capacity newptr :=
      Nat.le_trans (Nat.min_le_right ..) room
    rw [if_neg nonNull, if_neg (not_not.mpr alone), kept.oldSize still]
    have copied : ({ middle with
        bytes := memcpy middle.bytes newptr ptr (min (middle.capacity ptr) size.toNat) } : Bytes).Sound regions :=
      { kept with }
    obtain ⟨released, others⟩ := copied.kfree still freed
    refine ⟨released, .inr ⟨nonNull, fresh, ?_, ?_, fun position bound => ?_⟩, fun other there apart => ?_⟩
    · change middle.system.held.erase ptr = _
      rw [added, Finset.erase_insert_of_ne (Ne.symm different)]
    · exact room.trans_eq (others newptr given different.symm).capacity.symm
    · rw [← sameCapacity] at bound
      rw [(others newptr given different.symm).2.2 position (Nat.lt_of_lt_of_le bound fits)]
      dsimp only
      rw [memcpy_inside _ _ _ bound]
      refine (keeps ptr inside).2.2 position ?_
      rw [← sameCapacity]
      exact Nat.lt_of_lt_of_le bound (Nat.min_le_left ..)
    · have old := (keeps other there).1
      have apartNew : other ≠ newptr := by
        rintro rfl
        exact fresh there
      exact ((keeps other there).trans (memcpy_keeps kept given old apartNew fits)).trans (others other old apart)

end Realloc

/-- The sizes do not wrap, and nothing but the null pointer is freed. -/
def LibcCall.Clean : LibcCall → Prop
  | .mallocR size _ => size.toNat + bufferSize < 2 ^ 32
  | .freeR ptr _ => ptr = 0
  | .reallocR _ size _ _ => size.toNat + bufferSize < 2 ^ 32
  | .write _ _ => True

/-- The client has the pointers of the blocks in use. -/
structure Libc.Sound (regions : List MmRegion) (s : Libc) : Prop where
  memory : s.memory.Sound regions
  owned : s.memory.system.held = s.owned

section Client
variable {s next : Libc}

theorem libc_boot_sound (valid : ValidRegions regions) (nonNull : ∀ region ∈ regions, region.start ≠ 0)
    (bytes : Memory) : (Libc.boot regions bytes).Sound regions where
  memory := ⟨(boot_heapInvariant regions valid nonNull).1, boot_room valid,
    fun _ none => absurd none (Finset.notMem_empty _)⟩
  owned := rfl

theorem Libc.Sound.given (sound : s.Sound regions) {size : BitVec 32} (short : size.toNat + bufferSize < 2 ^ 32)
    (headers : Memory) : Libc.Sound regions ⟨(s.memory.kmalloc headers size).2,
      if (s.memory.kmalloc headers size).1 = 0 then s.owned else insert (s.memory.kmalloc headers size).1 s.owned⟩ := by
  obtain ⟨kept, -, ⟨null, same⟩ | ⟨nonNull, -, added, -⟩⟩ := sound.memory.kmalloc short headers
  · refine ⟨kept, ?_⟩
    dsimp only
    rw [if_pos null, same, sound.owned]
  · refine ⟨kept, ?_⟩
    dsimp only
    rw [if_neg nonNull, added, sound.owned]

theorem wrapReallocR_null (memory : Bytes) (headers freed : Memory) (size : BitVec 32) :
    wrapReallocR memory headers freed 0 size = memory.kmalloc headers size := by
  unfold wrapReallocR
  dsimp only
  rw [if_pos rfl]

/-- A call of the wrappers keeps the heap sound. -/
theorem Libc.Sound.step (sound : s.Sound regions) {call : LibcCall} (clean : call.Clean)
    (stepped : Libc.step s call = some next) : next.Sound regions := by
  have nonNull : 0 ∉ s.owned := by
    intro inside
    have large := sound.memory.invariant.consistent.pointers 0 (sound.owned ▸ inside)
    exact absurd large (by decide)
  cases call with
  | mallocR size headers =>
    obtain ⟨-, rfl⟩ := Option.ite_some_none_eq_some.mp stepped
    exact sound.given clean headers
  | freeR ptr headers =>
    obtain ⟨-, rfl⟩ := Option.ite_some_none_eq_some.mp stepped
    obtain rfl : ptr = 0 := clean
    have denied : (s.memory.kmalloc headers 0).1 = 0 := rfl
    have result := sound.given (show (0 : BitVec 32).toNat + bufferSize < 2 ^ 32 by decide) headers
    rw [if_pos denied] at result
    rw [Finset.erase_eq_of_notMem nonNull]
    exact result
  | reallocR ptr size headers freed =>
    simp only [Libc.step, Option.ite_none_right_eq_some, Option.some.injEq] at stepped
    obtain ⟨⟨-, has⟩, rfl⟩ := stepped
    rcases has with rfl | has
    · rw [wrapReallocR_null, Finset.erase_eq_of_notMem nonNull]
      exact sound.given clean headers
    · obtain ⟨kept, ⟨null, held, -⟩ | ⟨real, -, held, -⟩, -⟩ :=
        sound.memory.wrapReallocR (sound.owned ▸ has) clean headers freed
      · refine ⟨kept, ?_⟩
        dsimp only
        rw [if_pos null, held, sound.owned]
      · refine ⟨kept, ?_⟩
        dsimp only
        rw [if_neg real, held, sound.owned]
  | write address value =>
    obtain ⟨-, rfl⟩ := Option.ite_some_none_eq_some.mp stepped
    exact ⟨{ sound.memory with }, sound.owned⟩

end Client

/-- In every run of calls with sizes that do not wrap, in which nothing is freed, the blocks in use are those of the
client, and `realloc` of one of them fails and leaves it, or moves its bytes to a new block and releases it. -/
theorem libc_wrappers_agree (regions : List MmRegion) (valid : ValidRegions regions)
    (nonNull : ∀ region ∈ regions, region.start ≠ 0) (bytes : Memory) (calls : List LibcCall)
    (clean : ∀ call ∈ calls, call.Clean) (s : Libc) (ran : run Libc.step (.boot regions bytes) calls = some s) :
    s.memory.system.held = s.owned ∧ ∀ ptr ∈ s.owned, ∀ (size : BitVec 32) (headers freed : Memory),
      size.toNat + bufferSize < 2 ^ 32 →
      s.memory.Reallocated ptr size (wrapReallocR s.memory headers freed ptr size) := by
  have sound := run_invariant_of_guarded (Libc.Sound regions) (libc_boot_sound valid nonNull bytes)
    (.of_forall fun call there _ => clean call there) ran fun sound => sound.step
  exact ⟨sound.owned, fun ptr has size headers freed short =>
    (sound.memory.wrapReallocR (sound.owned ▸ has) short headers freed).2⟩

/-- A block that was written is reallocated. -/
theorem libc_wrappers_agree_twins :
    ∃ s, run Libc.step (.boot twins fun _ => 0) [.mallocR 16 fun _ => 1, .write 530 7, .reallocR 528 40 (fun _ => 2) fun _ => 3] =
        some s ∧ s.memory.system.held = s.owned ∧
      ∀ ptr ∈ s.owned, s.memory.Reallocated ptr 100 (wrapReallocR s.memory (fun _ => 4) (fun _ => 5) ptr 100) :=
  ⟨_, rfl, (libc_wrappers_agree twins twins_valid (by decide) (fun _ => 0)
    [.mallocR 16 fun _ => 1, .write 530 7, .reallocR 528 40 (fun _ => 2) fun _ => 3]
    (by simp [LibcCall.Clean, bufferSize]) _ rfl).1, fun ptr has => (libc_wrappers_agree twins twins_valid (by decide)
      (fun _ => 0) [.mallocR 16 fun _ => 1, .write 530 7, .reallocR 528 40 (fun _ => 2) fun _ => 3]
      (by simp [LibcCall.Clean, bufferSize]) _ rfl).2 ptr has 100 _ _ (by decide)⟩

/-- A block that is freed stays in use. -/
theorem free_r_frees_nothing :
    ∃ s, run Libc.step (.boot twins fun _ => 0) [.mallocR 100 fun _ => 0, .freeR 528 fun _ => 0] = some s ∧
      528 ∈ s.memory.system.held ∧ s.owned = ∅ :=
  ⟨_, rfl, by decide +kernel, by decide +kernel⟩

end Phabos.Mm
