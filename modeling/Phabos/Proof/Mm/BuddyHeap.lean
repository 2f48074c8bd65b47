import Phabos.Proof.Mm.BuddyInvariant

namespace Phabos.Mm
open Library Function List Option
variable {regions : List MmRegion} {region : MmRegion}

theorem order_of_power : ∀ order ≤ maxAddressableMemOrder,
    countBitSet 32 (2 ^ order) = 1 ∧ sizeToOrder (2 ^ order) = order := by decide

theorem mmAddRegion_of_power {s : Heap} {region : MmRegion} (power : countBitSet 32 region.size = 1) :
    (mmAddRegion s region).2.total = s.total + BitVec.ofNat 32 region.size ∧
      (mmAddRegion s region).2.used = s.used ∧
      (mmAddRegion s region).2.mmRegionList = s.mmRegionList ++ [region] := by
  unfold mmAddRegion
  rw [if_neg (not_not.mpr power)]
  cases s.isInitialized with
  | false => exact ⟨rfl, rfl, rfl⟩
  | true => exact ⟨rfl, rfl, rfl⟩

section Space

theorem space_append_self (order : Nat) (size : region.size = 2 ^ order) :
    space (regions ++ [region]) regions.length = extent region.start order := by
  ext x
  simp [space, mem_extent, size]

theorem space_append_of_ne {position : Nat} (other : position ≠ regions.length) :
    space (regions ++ [region]) position = space regions position := by
  unfold space
  rcases Nat.lt_or_gt_of_ne other with before | after
  · rw [List.getElem?_append_left before]
  · rw [List.getElem?_eq_none (by simp; omega), List.getElem?_eq_none (by omega)]

theorem space_length : space regions regions.length = ∅ := by
  ext x
  simp [space]

theorem ValidRegions.left (valid : ValidRegions (regions ++ [region])) : ValidRegions regions where
  wellFormed other inside := valid.wellFormed other (mem_append_left _ inside)
  disjoint := (pairwise_append.mp valid.disjoint).1

theorem ValidRegions.outside (valid : ValidRegions (regions ++ [region])) {order : Nat}
    (size : region.size = 2 ^ order) (position x : Nat) (inside : x ∈ extent region.start order) :
    x ∉ space regions position := by
  rintro ⟨other, placed, low, high⟩
  rw [mem_extent, ← size] at inside
  exact (pairwise_append.mp valid.disjoint).2.2 other (mem_of_getElem? placed) region
    (mem_singleton_self region) x low high inside.1 inside.2

end Space

theorem mmAddRegion_keeps {s : Heap} (invariant : (System.mk s ∅).HeapInvariant regions)
    (empty : s.isInitialized = false → s.mmBucket = fun _ => []) (valid : ValidRegions (regions ++ [region]))
    (nonNull : ∀ other ∈ regions ++ [region], other.start ≠ 0) :
    (System.mk (mmAddRegion s region).2 ∅).HeapInvariant (regions ++ [region]) ∧
      (mmAddRegion s region).2.isInitialized = true := by
  obtain ⟨consistent, buddyFree⟩ := invariant
  have wellFormed := valid.wellFormed region (by simp)
  obtain ⟨order, _, small, size⟩ := wellFormed.power
  have outside := valid.outside size
  have added : s.mmRegionList = regions := consistent.added
  have shape : (mmAddRegion s region).2 =
      { s with
        total := s.total + BitVec.ofNat 32 region.size
        isInitialized := true
        buffer := update s.buffer region.start ⟨order, regions.length⟩
        mmRegionList := regions ++ [region]
        mmBucket := update s.mmBucket order (s.mmBucket order ++ [region.start]) } := by
    unfold mmAddRegion
    rw [size, (order_of_power order small).1, (order_of_power order small).2]
    cases initialized : s.isInitialized with
    | false => simp [Heap.setBuffer, Heap.listAdd, added, empty initialized]
    | true => simp [Heap.setBuffer, Heap.listAdd, added]
  rw [shape]
  have vacant : System.layout ⟨s, ∅⟩ region.start = none := by
    rw [eq_none_iff_forall_ne_some]
    intro tile found
    exact outside tile.owner region.start (start_mem_extent _ _)
      (consistent.tiling.inside _ tile found (start_mem_extent _ _))
  have unlisted := (consistent.absent vacant).1
  have member {bucket block : Nat} :
      block ∈ update s.mmBucket order (s.mmBucket order ++ [region.start]) bucket ↔
        block ∈ s.mmBucket bucket ∨ bucket = order ∧ block = region.start :=
    mem_listAdd s
  have layout : System.layout ⟨{ s with
        total := s.total + BitVec.ofNat 32 region.size
        isInitialized := true
        buffer := update s.buffer region.start ⟨order, regions.length⟩
        mmRegionList := regions ++ [region]
        mmBucket := update s.mmBucket order (s.mmBucket order ++ [region.start]) }, ∅⟩ =
      update (System.layout ⟨s, ∅⟩) region.start (some ⟨order, regions.length, true⟩) := by
    funext block
    unfold System.layout
    by_cases here : block = region.start
    · subst block
      simp
    · simp [member, here]
  refine ⟨⟨⟨rfl, valid, nonNull, ?_, ?_, ?_, ?_, ?_⟩, ?_⟩, rfl⟩
  · rw [layout]
    exact consistent.tiling.add (size ▸ wellFormed.aligned) (space_append_self order size)
      (fun _ other => space_append_of_ne other) space_length outside
  · intro bucket block inside
    rcases member.mp inside with old | ⟨rfl, rfl⟩
    · have apart : block ≠ region.start := by
        rintro rfl
        exact unlisted bucket old
      dsimp only
      rw [update_of_ne apart]
      exact consistent.recorded bucket block old
    · dsimp only
      rw [update_self]
  · exact nodup_listAdd s consistent.once (unlisted order)
  · intro _ _ _ held
    exact absurd held (Finset.notMem_empty _)
  · intro _ held
    exact absurd held (Finset.notMem_empty _)
  · rw [layout]
    exact buddyFree.add consistent.tiling space_length

theorem initial_heapInvariant : (System.mk .initial ∅).HeapInvariant [] := by
  refine ⟨⟨rfl, ⟨by simp, .nil⟩, by simp, ⟨?_, ?_, ?_, ?_⟩, ?_, ?_, ?_, ?_⟩, ?_⟩
  · intro _ _ found
    cases found
  · intro _ _ found
    cases found
  · intro _ _ _ _ _ found
    cases found
  · rintro _ _ ⟨_, placed, _⟩
    cases placed
  · intro _ _ listed
    cases listed
  · exact fun _ => nodup_nil
  · intro _ _ listed
    cases listed
  · intro _ held
    cases held
  · intro _ _ _ buddies
    cases buddies.low

/-- The heap that boots meets the invariant. -/
theorem boot_heapInvariant (regions : List MmRegion) (valid : ValidRegions regions)
    (nonNull : ∀ region ∈ regions, region.start ≠ 0) :
    (System.boot regions).HeapInvariant regions ∧
      ((System.boot regions).heap.isInitialized = false →
        (System.boot regions).heap.mmBucket = fun _ => []) := by
  induction regions using reverseRecOn with
  | nil => exact ⟨initial_heapInvariant, fun _ => rfl⟩
  | append_singleton regions region ih =>
    obtain ⟨invariant, empty⟩ := ih valid.left
      fun other inside => nonNull other (mem_append_left _ inside)
    have result := mmAddRegion_keeps invariant empty valid nonNull
    unfold System.boot
    rw [foldl_append]
    refine ⟨result.1, fun uninitialized => ?_⟩
    have initialized := result.2
    change (mmAddRegion _ region).2.isInitialized = false at uninitialized
    rw [show (mmAddRegion _ region).2.isInitialized = true from initialized] at uninitialized
    cases uninitialized

/-- A call keeps the invariant of the heap. -/
theorem step_keeps {s next : System} (call : Call) (invariant : s.HeapInvariant regions)
    (stepped : step s call = some next) : next.HeapInvariant regions := by
  cases call with
  | kmalloc size flags =>
    obtain ⟨ptr, heap, returned, kept⟩ := kmalloc_keeps size flags invariant
    simp only [step, returned, ite_none_right_eq_some, some.injEq] at stepped
    obtain ⟨_, rfl⟩ := stepped
    exact kept
  | kfree ptr =>
    simp only [step] at stepped
    split at stepped
    · obtain rfl := some.inj stepped
      exact invariant
    · obtain ⟨held, rfl⟩ := ite_some_none_eq_some.mp stepped
      exact kfree_keeps held invariant

/-- The region is one single free block, on the list of its order. -/
structure System.OneFreeBlock (s : System) (position : Nat) (region : MmRegion) : Prop where
  whole : ∃ order, region.size = 2 ^ order ∧ region.start ∈ s.heap.mmBucket order
  single : ∀ bucket block, block ∈ s.heap.mmBucket bucket →
    (s.heap.buffer block).region = position → block = region.start

/-- When everything is released, each region is one free block again. -/
theorem System.HeapInvariant.oneFreeBlock {s : System} (invariant : s.HeapInvariant regions)
    (released : s.held = ∅) {position : Nat} (placed : regions[position]? = some region) :
    s.OneFreeBlock position region := by
  have consistent := invariant.consistent
  have wellFormed := consistent.valid.wellFormed region (mem_of_getElem? placed)
  obtain ⟨order, _, _, size⟩ := wellFormed.power
  have whole : space regions position = extent region.start order := by
    ext x
    simp [space, placed, mem_extent, size]
  obtain ⟨found, single⟩ := consistent.tiling.single invariant.buddyFree whole
    (size ▸ wellFormed.aligned) (by
      intro block tile entry _
      unfold System.layout at entry
      simp only [released, Finset.notMem_empty, if_false, ite_none_right_eq_some,
        some.injEq] at entry
      rw [← entry.2])
  constructor
  · exact ⟨order, size, (System.listed_of_layout found).1⟩
  · intro bucket block listed owned
    exact single block _ (consistent.layout_free listed) owned

/-- In every run over regions away from address 0, free and held blocks tile the regions, each free
block is listed once, no buddies stay apart, and when nothing is held each region is one free block. -/
theorem kmalloc_kfree_keep_buddy_heap (regions : List MmRegion) (valid : ValidRegions regions)
    (nonNull : ∀ region ∈ regions, region.start ≠ 0) (calls : List Call) (s : System)
    (ran : run step (System.boot regions) calls = some s) :
    s.HeapInvariant regions ∧
      (s.held = ∅ → ∀ position region, regions[position]? = some region →
        s.OneFreeBlock position region) := by
  have invariant : s.HeapInvariant regions := run_invariant (System.HeapInvariant regions)
    (boot_heapInvariant regions valid nonNull).1 ran @fun _ call _ holds stepped => step_keeps call holds stepped
  exact ⟨invariant, fun released _ _ placed => invariant.oneFreeBlock released placed⟩

theorem validRegions_pair {first second : MmRegion} (wellFormedFirst : first.WellFormed)
    (wellFormedSecond : second.WellFormed) (before : first.start + first.size ≤ second.start) :
    ValidRegions [first, second] := by
  constructor
  · intro region inside
    rcases mem_pair.mp inside with rfl | rfl
    · exact wellFormedFirst
    · exact wellFormedSecond
  · rw [pairwise_pair]
    intro x _ high low _
    omega

/-- Two regions that are adjacent and of one size. -/
def twins : List MmRegion := [⟨512, 256, MM_KERNEL⟩, ⟨768, 256, MM_KERNEL⟩]

theorem twins_valid : ValidRegions twins := validRegions_pair
  ⟨⟨8, by decide, by decide, rfl⟩, by decide, by decide⟩
  ⟨⟨8, by decide, by decide, rfl⟩, by decide, by decide⟩ (by decide)

/-- A split and the merges that undo it leave the two adjacent regions as they were. -/
theorem kmalloc_kfree_keep_twins :
    ∃ s, run step (System.boot twins) [.kmalloc 16 MM_KERNEL, .kmalloc 100 0, .kfree 528, .kfree 656] =
        some s ∧ s.OneFreeBlock 0 ⟨512, 256, MM_KERNEL⟩ ∧ s.OneFreeBlock 1 ⟨768, 256, MM_KERNEL⟩ := by
  refine exists_final System.held (∅) (by decide) fun s ran released => ?_
  have whole := (kmalloc_kfree_keep_buddy_heap twins twins_valid (by decide) _ s ran).2 released
  exact ⟨whole 0 _ rfl, whole 1 _ rfl⟩

/-- The region at address 0 makes its free block look like the null pointer. -/
def nullRegions : List MmRegion := [⟨0, 256, MM_KERNEL⟩, ⟨1024, 1024, MM_KERNEL⟩]

/-- With a region at address 0 an allocation fails and leaves two free buddies apart. -/
theorem kmalloc_leaves_buddies :
    ValidRegions nullRegions ∧
      ∃ s, run step (System.boot nullRegions) [.kmalloc 112 0] = some s ∧ s.held = ∅ ∧
        Buddies s.layout 1024 8 1 ∧ ¬ BuddyFree s.layout := by
  have valid : ValidRegions nullRegions := validRegions_pair
    ⟨⟨8, by decide, by decide, rfl⟩, by decide, by decide⟩
    ⟨⟨10, by decide, by decide, rfl⟩, by decide, by decide⟩ (by decide)
  have buddies : Buddies (System.layout ⟨(kmalloc (System.boot nullRegions).heap 112 0).2, ∅⟩) 1024 8 1 :=
    ⟨by rfl, by rfl, by decide⟩
  exact ⟨valid, _, rfl, rfl, buddies, fun free => free 1024 8 1 buddies⟩

end Phabos.Mm
