import Phabos.Proof.Mm.BucketLinks
import Phabos.Proof.Mm.Requests

namespace Phabos.Mm
open Library List

section Free
variable {s : Heap} {t : LinkedHeap} {bucket block : Nat}

theorem Heap.LinkedBy.guard (linked : s.LinkedBy t) (listed : block ∈ s.mmBucket bucket) :
    t.links.prev (.buffer block) = t.links.next (.buffer block) ↔ (s.mmBucket bucket).length = 1 := by
  rw [(linked.rings bucket).prev_eq_next (mem_map_of_mem listed), length_map]

/-- A buffer that is freed again alone in its bucket points to itself, and the walk through the bucket never ends. -/
theorem kfree_lone (linked : s.LinkedBy t) (alone : s.mmBucket bucket = [block])
    (recorded : (s.buffer block).bucket = bucket) (fuel : Nat) : t.kfree fuel (block + bufferSize) = none := by
  have ring := linked.rings bucket
  have listed : block ∈ s.mmBucket bucket := alone ▸ mem_cons_self
  have passes := (linked.guard listed).mpr (congrArg length alone)
  rw [alone] at ring
  obtain ⟨distinct, chain⟩ := ring
  obtain ⟨first, rest⟩ := isChain_cons_cons.mp chain
  have last := isChain_pair.mp rest
  have nonNull : block + bufferSize ≠ 0 := by
    unfold bufferSize
    omega
  have different : Node.buffer block ≠ .mmBucket bucket := fun same => by cases same
  have head : (listAdd t.links (.mmBucket bucket) (.buffer block)).next (.mmBucket bucket) = .buffer block := by
    rw [next_listAdd different, last.2, if_neg different.symm, if_neg different.symm]
    exact first.1
  have self : (listAdd t.links (.mmBucket bucket) (.buffer block)).next (.buffer block) = .buffer block := by
    rw [next_listAdd different, last.2, if_pos rfl]
  unfold LinkedHeap.kfree
  rw [if_neg nonNull, Nat.add_sub_cancel, if_neg (not_not.mpr passes)]
  dsimp only
  rw [linked.buffer, recorded]
  cases fuel with
  | zero => rfl
  | succ fuel =>
    have nonempty : listIsEmpty (listAdd t.links (.mmBucket bucket) (.buffer block)) (.mmBucket bucket) = false := by
      unfold listIsEmpty
      rw [head]
      exact decide_eq_false different.symm
    rw [LinkedHeap.defragment]
    simp only [recorded, nonempty, Bool.false_eq_true, if_false, head]
    have missed : Node.buffer block ≠
        .buffer (if block.testBit bucket = true then block - 2 ^ bucket else block + 2 ^ bucket) := by
      intro same
      have equal := Node.buffer.inj same
      have positive := Nat.two_pow_pos bucket
      split at equal
      · rename_i upper
        have large := Nat.ge_two_pow_of_testBit upper
        omega
      · omega
    rw [Links.walk_alone self different missed]

theorem linked_empty (s : Heap) :
    ({ s with mmBucket := fun _ => [] } : Heap).LinkedBy ⟨⟨id, id⟩, s.buffer, s.used⟩ :=
  ⟨fun _ => ⟨nodup_singleton _, isChain_pair.mpr ⟨rfl, rfl⟩⟩, rfl, rfl⟩

end Free

/-- In every heap that requests without wrapping reach, freeing a free block again returns and changes neither the
links of the buckets nor the bytes in use exactly when its bucket lists another block. -/
theorem kfree_rejects_free_block (regions : List MmRegion) (valid : ValidRegions regions)
    (nonNull : ∀ region ∈ regions, region.start ≠ 0) (requests : List Request)
    (short : ∀ request ∈ requests, request.Short) (s : Clients)
    (ran : run Clients.step (.boot regions) requests = some s) (t : LinkedHeap) (linked : s.heap.LinkedBy t)
    (bucket block : Nat) (free : block ∈ s.heap.mmBucket bucket) :
    (∃ enough next, (∀ fuel, enough ≤ fuel → t.kfree fuel (block + bufferSize) = some next) ∧
        next.links = t.links ∧ next.used = t.used) ↔
      1 < (s.heap.mmBucket bucket).length := by
  obtain ⟨intact, sound⟩ := sound_of_run valid nonNull ran short
  have recorded : (s.heap.buffer block).bucket = bucket := by
    rw [sound.agree.listed bucket block free]
    exact sound.invariant.consistent.recorded bucket block (sound.agree.buckets ▸ free)
  have some := List.length_pos_of_mem free
  constructor
  · rintro ⟨enough, next, returned, -⟩
    by_contra few
    obtain ⟨only, alone⟩ := List.length_eq_one_iff.mp (show (s.heap.mmBucket bucket).length = 1 by omega)
    obtain rfl := List.mem_singleton.mp (alone ▸ free)
    have never := returned enough (Nat.le_refl _)
    rw [kfree_lone linked alone recorded] at never
    cases never
  · intro many
    refine ⟨0, t, fun fuel _ => ?_, rfl, rfl⟩
    have real : block + bufferSize ≠ 0 := by
      unfold bufferSize
      omega
    have stopped : t.links.prev (.buffer block) ≠ t.links.next (.buffer block) := fun same =>
      absurd ((linked.guard free).mp same) (Nat.ne_of_gt many)
    unfold LinkedHeap.kfree
    rw [if_neg real, Nat.add_sub_cancel, if_pos stopped]

/-- The two free blocks of the twins share a bucket. -/
theorem kfree_rejects_free_block_twins :
    ∃ t : LinkedHeap, (Clients.boot twins).heap.LinkedBy t ∧
      ((∃ enough next, (∀ fuel, enough ≤ fuel → t.kfree fuel (512 + bufferSize) = some next) ∧
          next.links = t.links ∧ next.used = t.used) ↔ 1 < ((Clients.boot twins).heap.mmBucket 8).length) := by
  have first := (linked_empty (Clients.boot twins).heap).listAdd 8 (show ∀ k, 512 ∉ _ by simp)
  have linked := first.listAdd 8 (show ∀ k, 768 ∉ _ by
    intro k
    unfold Heap.listAdd
    by_cases same : k = 8
    · simp [same]
    · simp [same])
  refine ⟨_, linked, kfree_rejects_free_block twins twins_valid (by decide) [] (by decide) (.boot twins) rfl _ linked
    8 512 (by decide)⟩

/-- A free block that is alone in its bucket is freed again, and `kfree` does not return. -/
theorem kfree_of_lone_block_hangs :
    ∃ t : LinkedHeap, (Clients.boot [⟨512, 256, MM_KERNEL⟩]).heap.LinkedBy t ∧
      512 ∈ (Clients.boot [⟨512, 256, MM_KERNEL⟩]).heap.mmBucket 8 ∧
      ∀ fuel, t.kfree fuel (512 + bufferSize) = none := by
  have linked := (linked_empty (Clients.boot [⟨512, 256, MM_KERNEL⟩]).heap).listAdd 8 (show ∀ k, 512 ∉ _ by simp)
  refine ⟨_, linked, by decide, kfree_lone (s := (Clients.boot [⟨512, 256, MM_KERNEL⟩]).heap) linked rfl rfl⟩

variable {regions : List MmRegion}

/-- Every listed block has room for its header, which knows its size. -/
def Heap.Room (s : Heap) : Prop :=
  ∀ bucket block, block ∈ s.mmBucket bucket → 4 ≤ bucket ∧ 4 ≤ (s.buffer block).bucket

section Room
variable {held : Finset Nat} {s : Heap} {order : Nat} {flags : BitVec 32}

theorem Heap.Room.splitBuffer (room : s.Room) (large : 4 ≤ order) (buffer1 : Nat) :
    (s.splitBuffer order buffer1).Room := by
  intro bucket block listed
  rw [mmBucket_splitBuffer] at listed
  rw [buffer_splitBuffer]
  have old (there : block ∈ (s.mmBucket bucket).erase buffer1) : 4 ≤ bucket ∧
      4 ≤ (if block = buffer1 ∨ block = buffer1 + 2 ^ order then (⟨order, (s.buffer buffer1).region⟩ : MmBuffer)
        else s.buffer block).bucket := by
    obtain ⟨first, second⟩ := room bucket block (mem_of_mem_erase there)
    refine ⟨first, ?_⟩
    split
    · exact large
    · exact second
  split at listed
  · rename_i same
    subst bucket
    rcases mem_append.mp listed with listed | last
    · rcases mem_append.mp listed with listed | first
      · exact old listed
      · rw [if_pos (.inl (mem_singleton.mp first))]
        exact ⟨large, large⟩
    · rw [if_pos (.inr (mem_singleton.mp last))]
      exact ⟨large, large⟩
  · exact old listed

theorem Heap.Room.mergeBuffers (room : s.Room) {k low : Nat} (high : Nat) (lower : low ∈ s.mmBucket k) :
    (s.mergeBuffers low high).Room := by
  intro bucket block listed
  have header := (room k low lower).2
  rw [mmBucket_mergeBuffers] at listed
  rw [buffer_mergeBuffers]
  have old (there : block ∈ ((s.mmBucket bucket).erase low).erase high) : 4 ≤ bucket ∧
      4 ≤ (if block = low then (⟨(s.buffer low).bucket + 1, (s.buffer low).region⟩ : MmBuffer)
        else s.buffer block).bucket := by
    obtain ⟨first, second⟩ := room bucket block (mem_of_mem_erase (mem_of_mem_erase there))
    refine ⟨first, ?_⟩
    split
    · exact Nat.le_succ_of_le header
    · exact second
  split at listed
  · rename_i same
    subst bucket
    rcases mem_append.mp listed with listed | last
    · exact old listed
    · rw [if_pos (mem_singleton.mp last)]
      exact ⟨Nat.le_succ_of_le header, Nat.le_succ_of_le header⟩
  · exact old listed

theorem Heap.Room.getBuffer (room : s.Room) (invariant : (System.mk s held).HeapInvariant regions) (large : 4 ≤ order)
    (small : order ≤ maxAddressableMemOrder) (depth : Nat) (flags : BitVec 32) : (getBuffer depth s order flags).2.Room :=
  getBuffer_closure Heap.Room invariant room (fun _ _ _ room _ above _ _ =>
    room.splitBuffer (Nat.le_trans large above) _) depth flags small

theorem four_lt_requestOrder {size : BitVec 32} (some : size ≠ 0) (short : size.toNat + bufferSize < 2 ^ 32) :
    4 < requestOrder size := by
  have positive : 0 < size.toNat := Nat.pos_of_ne_zero fun none => some (BitVec.eq_of_toNat_eq none)
  rw [requestOrder_eq_clog short, Nat.lt_clog_iff_pow_lt (by decide)]
  unfold bufferSize
  omega

theorem Heap.Room.kmalloc (room : s.Room) (invariant : (System.mk s held).HeapInvariant regions) {size : BitVec 32}
    (short : size.toNat + bufferSize < 2 ^ 32) (flags : BitVec 32) : (kmalloc s size flags).2.Room := by
  by_cases empty : size = 0
  · have same : Mm.kmalloc s size flags = (0, s) := if_pos empty
    rw [same]
    exact room
  have large := four_lt_requestOrder empty short
  rw [kmalloc_eq s flags empty]
  split
  · exact room
  · rename_i small
    have searched := Heap.Room.getBuffer (s := s.counted (requestOrder size)) room (invariant.counted _)
      (Nat.le_of_lt large) (Nat.not_lt.mp small) 1 flags
    dsimp only
    split
    · exact searched
    · exact fun bucket block listed => searched bucket block (mem_of_mem_erase listed)

theorem Heap.Room.defragment (room : s.Room) (levels : Nat) {bucket block : Nat} (listed : block ∈ s.mmBucket bucket) :
    (defragment levels s block).Room := by
  induction levels generalizing s bucket block with
  | zero => exact room
  | succ levels ih =>
    rcases defragment_cases levels listed with same | ⟨low, high, ⟨k, lower⟩, merged⟩
    · rw [same]
      exact room
    · have joined : low ∈ (s.mergeBuffers low high).mmBucket ((s.buffer low).bucket + 1) := by
        rw [mmBucket_mergeBuffers, if_pos rfl]
        exact mem_append_right _ mem_cons_self
      rw [merged]
      exact ih (room.mergeBuffers high lower) joined

theorem Heap.Room.kfree {block : Nat} (room : s.Room) (large : 4 ≤ (s.buffer block).bucket)
    (apart : ∀ bucket, block ∉ s.mmBucket bucket) : (kfree s (block + bufferSize)).Room := by
  rw [kfree_eq apart]
  refine Heap.Room.defragment (fun bucket other listed => ?_) _ ((mem_listAdd _).mpr (.inr ⟨rfl, rfl⟩))
  rcases (mem_listAdd _).mp listed with old | ⟨rfl, rfl⟩
  · exact room bucket other old
  · exact ⟨large, large⟩

theorem Heap.Room.mmAddRegion (room : s.Room) {region : MmRegion} (wellFormed : region.WellFormed) :
    (mmAddRegion s region).2.Room := by
  obtain ⟨order, large, small, size⟩ := wellFormed.power
  have added (heap : Heap) (room : heap.Room) (position : Nat) :
      ((heap.setBuffer region.start ⟨order, position⟩).listAdd order region.start).Room := by
    intro bucket block listed
    have header : ((heap.setBuffer region.start ⟨order, position⟩).listAdd order region.start).buffer block =
        if block = region.start then ⟨order, position⟩ else heap.buffer block := Function.update_apply ..
    rw [header]
    rcases (mem_listAdd _).mp listed with old | ⟨rfl, rfl⟩
    · obtain ⟨first, second⟩ := room bucket block old
      refine ⟨first, ?_⟩
      split
      · exact Nat.le_trans (by decide) large
      · exact second
    · rw [if_pos rfl]
      exact ⟨Nat.le_trans (by decide) large, Nat.le_trans (by decide) large⟩
  unfold Mm.mmAddRegion
  rw [size, (order_of_power order small).1, (order_of_power order small).2]
  cases s.isInitialized with
  | false => exact added ⟨fun _ => [], _, true, s.buffer, _, s.used⟩ (fun _ _ none => absurd none not_mem_nil) _
  | true => exact added ⟨s.mmBucket, _, true, s.buffer, _, s.used⟩ room _

theorem boot_room (valid : ValidRegions regions) : (System.boot regions).heap.Room := by
  induction regions using reverseRecOn with
  | nil => exact fun _ _ none => absurd none not_mem_nil
  | append_singleton regions region ih =>
    have result := (ih valid.left).mmAddRegion (valid.wellFormed region (by simp))
    unfold System.boot
    rw [foldl_append]
    exact result

end Room

end Phabos.Mm
