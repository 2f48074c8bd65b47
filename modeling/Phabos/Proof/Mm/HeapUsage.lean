import Mathlib.Algebra.BigOperators.Ring.Finset
import Mathlib.Algebra.Order.BigOperators.Group.Finset
import Mathlib.Order.Interval.Finset.Nat
import Phabos.Proof.Mm.Requests

namespace Phabos.Mm
open Library List Option
variable {regions : List MmRegion}

/-- The bytes of the blocks that are held, with their headers. -/
def System.inUse (s : System) : Nat := ∑ ptr ∈ s.held, 2 ^ (s.heap.buffer (ptr - bufferSize)).bucket

/-- The bytes of all blocks that `kmalloc` and `page_alloc` have given to clients. -/
def Clients.inUse (s : Clients) : Nat :=
  ∑ ptr ∈ s.held, 2 ^ (s.heap.buffer (ptr - bufferSize)).bucket + ∑ page ∈ s.pages, 2 ^ (page.2 + PAGE_ORDER)

/-- `mm_add_region` accepts a region whose size is a power of two. -/
def MmRegion.Accepted (region : MmRegion) : Prop := countBitSet 32 region.size = 1

instance (region : MmRegion) : Decidable region.Accepted := inferInstanceAs (Decidable (_ = _))

/-- A request does not wrap, and a free block can meet it when it comes to the search. -/
def Clients.Meets (s : Clients) : Request → Prop
  | .kmalloc size flags => size.toNat + bufferSize < 2 ^ 32 ∧
      (size = 0 ∨ maxAddressableMemOrder < requestOrder size ∨ s.heap.Meets (requestOrder size) flags)
  | .pageAlloc flags order => s.heap.Meets (order + PAGE_ORDER) flags
  | _ => True

instance (s : Clients) : (request : Request) → Decidable (s.Meets request)
  | .kmalloc _ _ => inferInstanceAs (Decidable (_ ∧ _))
  | .pageAlloc flags order => inferInstanceAs (Decidable (s.heap.Meets (order + PAGE_ORDER) flags))
  | .kfree _ => isTrue trivial
  | .pageFree _ _ => isTrue trivial
  | .write _ _ => isTrue trivial

section System
variable {held : Finset Nat} {s next : Heap} {block order : Nat} {flags : BitVec 32}

theorem Allocated.inUse (allocated : Allocated regions held order flags s block next) :
    System.inUse ⟨next, insert (block + bufferSize) held⟩ = System.inUse ⟨s, held⟩ + 2 ^ order := by
  unfold System.inUse
  rw [Finset.sum_insert allocated.fresh, Nat.add_sub_cancel, allocated.bucket, Nat.add_comm]
  congr 1
  refine Finset.sum_congr rfl fun ptr inside => ?_
  have large := allocated.kept.consistent.pointers ptr (Finset.mem_insert_of_mem inside)
  have header := allocated.frame.header (ptr - bufferSize) (by
    change ptr - bufferSize + bufferSize ∈ held
    rwa [Nat.sub_add_cancel large])
  rw [header]

theorem kfree_inUse (invariant : (System.mk s held).HeapInvariant regions) (inside : block + bufferSize ∈ held) :
    System.inUse ⟨kfree s (block + bufferSize), held.erase (block + bufferSize)⟩ +
      2 ^ (s.buffer block).bucket = System.inUse ⟨s, held⟩ := by
  have frame := kfree_frame invariant inside
  unfold System.inUse
  rw [← Finset.sum_erase_add held _ inside, Nat.add_sub_cancel]
  congr 1
  refine Finset.sum_congr rfl fun ptr there => ?_
  have large := invariant.consistent.pointers ptr (Finset.mem_of_mem_erase there)
  have header := frame.header (ptr - bufferSize) (by
    change ptr - bufferSize + bufferSize ∈ held.erase (block + bufferSize)
    rwa [Nat.sub_add_cancel large])
  rw [header]

theorem System.Consistent.inUse_lt (consistent : (System.mk s held).Consistent regions) :
    System.inUse ⟨s, held⟩ < 2 ^ 32 := by
  have spans : System.inUse ⟨s, held⟩ = (held.biUnion fun ptr =>
      Finset.Ico (ptr - bufferSize) (ptr - bufferSize + 2 ^ (s.buffer (ptr - bufferSize)).bucket)).card := by
    rw [Finset.card_biUnion]
    · unfold System.inUse
      exact Finset.sum_congr rfl fun ptr _ => by rw [Nat.card_Ico, Nat.add_sub_cancel_left]
    · intro one insideOne other insideOther different
      rw [Function.onFun, Finset.disjoint_left]
      intro x inOne inOther
      have largeOne := consistent.pointers one insideOne
      have largeOther := consistent.pointers other insideOther
      have heldOne : one - bufferSize + bufferSize ∈ held := by rwa [Nat.sub_add_cancel largeOne]
      have heldOther : other - bufferSize + bufferSize ∈ held := by rwa [Nat.sub_add_cancel largeOther]
      have same := consistent.tiling.apart _ _ _ _ x (consistent.layout_held heldOne) (consistent.layout_held heldOther)
        (mem_extent.mpr (Finset.mem_Ico.mp inOne)) (mem_extent.mpr (Finset.mem_Ico.mp inOther))
      omega
  have inside : (held.biUnion fun ptr =>
      Finset.Ico (ptr - bufferSize) (ptr - bufferSize + 2 ^ (s.buffer (ptr - bufferSize)).bucket)) ⊆
        Finset.Ico 1 (2 ^ 32) := by
    intro x covered
    obtain ⟨ptr, there, between⟩ := Finset.mem_biUnion.mp covered
    have large := consistent.pointers ptr there
    have known : ptr - bufferSize + bufferSize ∈ held := by rwa [Nat.sub_add_cancel large]
    have tile := consistent.layout_held known
    have last := consistent.tile_end tile
    have first := (consistent.tile_bounds tile).2
    dsimp only at last
    rw [Finset.mem_Ico] at between ⊢
    omega
  have bound := Finset.card_le_card inside
  rw [← spans, Nat.card_Ico] at bound
  omega

end System

section Counted
variable {held : Finset Nat} {s : Clients} {intact : Heap} {order : Nat}

/-- The counter of a heap is the bytes of its blocks in use. -/
def System.Counted (s : System) : Prop := s.heap.used.toNat = s.inUse

theorem Allocated.counted {flags : BitVec 32} {next : Heap} {block : Nat} (counted : System.Counted ⟨intact, held⟩)
    (small : order ≤ maxAddressableMemOrder)
    (allocated : Allocated regions held order flags (intact.counted order) block next) :
    System.Counted ⟨next, insert (block + bufferSize) held⟩ ∧ next.total = intact.total := by
  have bytes : System.inUse ⟨intact.counted order, held⟩ = System.inUse ⟨intact, held⟩ := rfl
  have sum := allocated.inUse
  have bound := allocated.kept.consistent.inUse_lt
  have used : next.used = intact.used + orderToSize order := allocated.frame.used
  refine ⟨?_, allocated.frame.total⟩
  unfold System.Counted at counted ⊢
  dsimp only at counted ⊢
  rw [used, BitVec.toNat_add, orderToSize_toNat order small, counted]
  omega

theorem kfree_counted {block : Nat} (invariant : (System.mk intact held).HeapInvariant regions)
    (counted : System.Counted ⟨intact, held⟩) (inside : block + bufferSize ∈ held) :
    System.Counted ⟨kfree intact (block + bufferSize), held.erase (block + bufferSize)⟩ ∧
      (kfree intact (block + bufferSize)).total = intact.total := by
  have sum := kfree_inUse invariant inside
  have frame := kfree_frame invariant inside
  have small : (intact.buffer block).bucket ≤ maxAddressableMemOrder :=
    (invariant.consistent.tile_bounds (invariant.consistent.layout_held inside)).1
  have used : (kfree intact (block + bufferSize)).used =
      intact.used - orderToSize (intact.buffer block).bucket := frame.used
  have bound := intact.used.isLt
  refine ⟨?_, frame.total⟩
  have lowered : (intact.used - orderToSize (intact.buffer block).bucket).toNat =
      intact.used.toNat - 2 ^ (intact.buffer block).bucket := by
    have enough : (orderToSize (intact.buffer block).bucket).toNat ≤ intact.used.toNat := by
      rw [orderToSize_toNat _ small]
      unfold System.Counted at counted
      dsimp only at counted
      omega
    rw [BitVec.toNat_sub_of_le enough, orderToSize_toNat _ small]
  unfold System.Counted at counted ⊢
  dsimp only at counted ⊢
  rw [used, lowered]
  omega

theorem Clients.Sound.inUse (sound : s.Sound regions intact) : s.inUse = System.inUse ⟨intact, s.pointers⟩ := by
  have apart : Disjoint s.held (s.pages.image fun page => page.1 + bufferSize) := by
    rw [Finset.disjoint_right]
    intro ptr there
    obtain ⟨page, inside, rfl⟩ := Finset.mem_image.mp there
    exact sound.apart page inside
  unfold Clients.inUse System.inUse Clients.pointers
  dsimp only
  rw [Finset.sum_union apart, Finset.sum_image]
  · congr 1
    · refine Finset.sum_congr rfl fun ptr inside => ?_
      have large := sound.invariant.consistent.pointers ptr (Clients.mem_pointers.mpr (.inl inside))
      have header := sound.agree.header (ptr - bufferSize) (by
        change ptr - bufferSize + bufferSize ∈ s.held
        rwa [Nat.sub_add_cancel large])
      rw [header]
    · refine Finset.sum_congr rfl fun page inside => ?_
      rw [Nat.add_sub_cancel, sound.pages page inside]
  · intro one insideOne other insideOther same
    have address : one.1 = other.1 := Nat.add_right_cancel same
    refine Prod.ext address (Nat.add_right_cancel (m := PAGE_ORDER) ?_)
    rw [← sound.pages one insideOne, ← sound.pages other insideOther, address]

/-- The clients have a sound heap, whose counters are right. -/
structure Clients.Accounted (regions : List MmRegion) (total : BitVec 32) (s : Clients) (intact : Heap) : Prop where
  sound : s.Sound regions intact
  counted : System.Counted ⟨intact, s.pointers⟩
  total : intact.total = total

theorem Clients.Accounted.kmalloc {total : BitVec 32} (accounted : s.Accounted regions total intact)
    {size flags : BitVec 32} (meets : s.Meets (.kmalloc size flags)) :
    (s.afterKmalloc (Mm.kmalloc s.heap size flags)).Accounted regions total (Mm.kmalloc intact size flags).2 := by
  obtain ⟨sound, counted, same⟩ := accounted
  obtain ⟨pointer, -⟩ := sound.agree.kmalloc sound.invariant size flags
  have outcome := kmalloc_outcome sound.invariant size flags
  suffices after : System.Counted ⟨(Mm.kmalloc intact size flags).2,
      (s.afterKmalloc (Mm.kmalloc s.heap size flags)).pointers⟩ ∧ (Mm.kmalloc intact size flags).2.total = total from
    ⟨sound.kmalloc size flags, after.1, after.2⟩
  rw [pointers_afterKmalloc, pointer]
  obtain ⟨short, empty | large | supply⟩ := meets
  · rw [if_pos empty] at outcome
    rw [outcome]
    exact ⟨counted, same⟩
  · have some : size ≠ 0 := by
      rintro rfl
      revert large
      decide
    rw [if_neg some, if_neg fun both => Nat.not_lt.mpr both.1 large] at outcome
    have limit : requestOrder size ≤ 32 := by
      rw [requestOrder_eq_clog short]
      exact Nat.clog_le_of_le_pow (Nat.le_of_lt short)
    have order : requestOrder size = 32 := Nat.le_antisymm limit large
    have nothing : orderToSize (requestOrder size) = 0 := by
      rw [order]
      decide
    rw [outcome]
    have used : intact.used + orderToSize (requestOrder size) = intact.used := by
      rw [nothing]
      exact BitVec.add_zero _
    unfold Heap.counted
    rw [used]
    exact ⟨counted, same⟩
  · by_cases empty : size = 0
    · rw [if_pos empty] at outcome
      rw [outcome]
      exact ⟨counted, same⟩
    · have small : requestOrder size ≤ maxAddressableMemOrder := by
        obtain ⟨bucket, bound, above, -⟩ | ⟨-, bucket, bound, above, -⟩ := supply
        · exact Nat.le_trans above bound
        · exact Nat.le_trans above bound
      rw [if_neg empty, if_pos ⟨small, sound.agree.meets.mp supply⟩] at outcome
      obtain ⟨block, next, returned, allocated⟩ := outcome
      have nonNull : block + bufferSize ≠ 0 := by
        unfold bufferSize
        omega
      rw [returned]
      simp only [if_neg nonNull]
      obtain ⟨after, kept⟩ := allocated.counted counted small
      exact ⟨after, kept.trans same⟩

theorem Clients.Accounted.pageAlloc {total : BitVec 32} (accounted : s.Accounted regions total intact)
    {flags : BitVec 32} (meets : s.Meets (.pageAlloc flags order)) :
    order + PAGE_ORDER ≤ maxAddressableMemOrder ∧
      (s.afterPageAlloc order (Mm.pageAlloc s.heap flags order)).Accounted regions total
        (Mm.pageAlloc intact flags order).2 := by
  obtain ⟨sound, counted, same⟩ := accounted
  have short : order + PAGE_ORDER ≤ maxAddressableMemOrder := by
    obtain ⟨bucket, bound, above, -⟩ | ⟨-, bucket, bound, above, -⟩ := meets
    · exact Nat.le_trans above bound
    · exact Nat.le_trans above bound
  obtain ⟨pointer, -⟩ := sound.agree.pageAlloc sound.invariant flags order
  have outcome := pageAlloc_outcome sound.invariant short flags
  rw [if_pos (sound.agree.meets.mp meets)] at outcome
  obtain ⟨block, next, returned, -, real, allocated⟩ := outcome
  suffices after : System.Counted ⟨(Mm.pageAlloc intact flags order).2,
      (s.afterPageAlloc order (Mm.pageAlloc s.heap flags order)).pointers⟩ ∧
        (Mm.pageAlloc intact flags order).2.total = total from
    ⟨short, sound.pageAlloc flags short, after.1, after.2⟩
  rw [pointers_afterPageAlloc, pointer, returned]
  dsimp only
  rw [if_neg real]
  obtain ⟨after, kept⟩ := allocated.counted counted short
  exact ⟨after, kept.trans same⟩

/-- A request that is met keeps the count of the used bytes. -/
theorem Clients.Accounted.step {total : BitVec 32} {next : Clients} {request : Request}
    (accounted : s.Accounted regions total intact) (meets : s.Meets request)
    (stepped : Clients.step s request = some next) : ∃ intact, next.Accounted regions total intact := by
  have sound := accounted.sound
  cases request with
  | kmalloc size flags =>
    obtain ⟨-, rfl⟩ := ite_some_none_eq_some.mp stepped
    exact ⟨_, accounted.kmalloc meets⟩
  | kfree ptr =>
    simp only [Clients.step] at stepped
    split at stepped
    · obtain rfl := some.inj stepped
      exact ⟨intact, accounted⟩
    · obtain ⟨inside, rfl⟩ := ite_some_none_eq_some.mp stepped
      have before : ptr ∈ s.pointers := Clients.mem_pointers.mpr (.inl inside)
      have large := sound.invariant.consistent.pointers ptr before
      obtain ⟨block, rfl⟩ : ∃ block, ptr = block + bufferSize := ⟨ptr - bufferSize, by omega⟩
      obtain ⟨after, kept⟩ := kfree_counted sound.invariant accounted.counted before
      refine ⟨_, sound.kfree inside, ?_, kept.trans accounted.total⟩
      rw [sound.pointers_erase inside]
      exact after
  | pageAlloc flags order =>
    obtain ⟨-, rfl⟩ := ite_some_none_eq_some.mp stepped
    exact ⟨_, (accounted.pageAlloc meets).2⟩
  | pageFree page order =>
    obtain ⟨there, rfl⟩ := ite_some_none_eq_some.mp stepped
    obtain ⟨after, pointers⟩ := sound.pageFree there
    have before : page + bufferSize ∈ s.pointers := Clients.mem_pointers.mpr (.inr ⟨_, there, rfl⟩)
    obtain ⟨later, kept⟩ := kfree_counted sound.invariant accounted.counted before
    by_cases taken : (s.heap.pageRegion page (pageBytes order)).isSome
    · rw [if_pos taken] at after pointers
      refine ⟨_, after, ?_, kept.trans accounted.total⟩
      rw [pointers]
      exact later
    · rw [if_neg taken] at after pointers
      refine ⟨_, after, ?_, accounted.total⟩
      rw [pointers]
      exact accounted.counted
  | write address header =>
    obtain ⟨owned, rfl⟩ := ite_some_none_eq_some.mp stepped
    exact ⟨intact, sound.write owned header, accounted.counted, accounted.total⟩

end Counted

section Boot

theorem mmAddRegion_of_not {s : Heap} {region : MmRegion} (rejected : ¬ region.Accepted) :
    (mmAddRegion s region).2 = s :=
  congrArg Prod.snd (if_pos rejected : mmAddRegion s region = (-EINVAL, s))

theorem boot_filter (offered : List MmRegion) :
    Clients.boot offered = .boot (offered.filter fun region => region.Accepted) := by
  have same (s : Heap) : offered.foldl (fun s region => (mmAddRegion s region).2) s =
      (offered.filter fun region => region.Accepted).foldl (fun s region => (mmAddRegion s region).2) s := by
    induction offered generalizing s with
    | nil => rfl
    | cons region rest ih =>
      rw [foldl_cons, ih, filter_cons]
      by_cases accepted : region.Accepted
      · rw [if_pos (decide_eq_true accepted), foldl_cons]
      · rw [if_neg (by rwa [decide_eq_true_iff]), mmAddRegion_of_not accepted]
  unfold Clients.boot System.boot
  rw [same]

theorem ValidRegions.covered (valid : ValidRegions regions) (nonNull : ∀ region ∈ regions, region.start ≠ 0) :
    (regions.map MmRegion.size).sum < 2 ^ 32 := by
  have counted : ∃ covered : Finset Nat, covered.card = (regions.map MmRegion.size).sum ∧
      ∀ x, x ∈ covered ↔ ∃ region ∈ regions, region.start ≤ x ∧ x < region.start + region.size := by
    clear nonNull
    obtain ⟨-, disjoint⟩ := valid
    induction disjoint with
    | nil => exact ⟨∅, rfl, by simp⟩
    | @cons region rest apart _ ih =>
      obtain ⟨covered, size, member⟩ := ih
      refine ⟨Finset.Ico region.start (region.start + region.size) ∪ covered, ?_, fun x => ?_⟩
      · rw [Finset.card_union_of_disjoint, Nat.card_Ico, size, Nat.add_sub_cancel_left, map_cons,
          sum_cons]
        rw [Finset.disjoint_left]
        intro x inside other
        obtain ⟨low, high⟩ := Finset.mem_Ico.mp inside
        obtain ⟨second, there, lower, higher⟩ := (member x).mp other
        exact apart second there x low high lower higher
      · rw [Finset.mem_union, Finset.mem_Ico, member]
        simp only [mem_cons, exists_eq_or_imp]
  obtain ⟨covered, size, member⟩ := counted
  have inside : covered ⊆ Finset.Ico 1 (2 ^ 32) := by
    intro x there
    obtain ⟨region, known, low, high⟩ := (member x).mp there
    have last := (valid.wellFormed region known).end_le
    have first := nonNull region known
    rw [Finset.mem_Ico]
    omega
  have bound := Finset.card_le_card inside
  rw [size, Nat.card_Ico] at bound
  omega

theorem boot_counters (accepted : ∀ region ∈ regions, region.Accepted) :
    (System.boot regions).heap.total = BitVec.ofNat 32 (regions.map MmRegion.size).sum ∧
      (System.boot regions).heap.used = 0 := by
  induction regions using reverseRecOn with
  | nil => exact ⟨rfl, rfl⟩
  | append_singleton regions region ih =>
    obtain ⟨total, used⟩ := ih fun other there => accepted other (mem_append_left _ there)
    obtain ⟨more, same, -⟩ := mmAddRegion_of_power (s := (System.boot regions).heap)
      (accepted region (mem_append_right _ (mem_singleton_self region)))
    unfold System.boot at total used more same ⊢
    rw [foldl_append, map_append, sum_append]
    refine ⟨?_, same.trans used⟩
    rw [BitVec.ofNat_add, ← total]
    exact more

end Boot

/-- The counters are right in every run whose requests are met. -/
theorem accounted_of_run (valid : ValidRegions regions) (nonNull : ∀ region ∈ regions, region.start ≠ 0)
    (accepted : ∀ region ∈ regions, region.Accepted) {requests : List Request} {s : Clients}
    (ran : run Clients.step (.boot regions) requests = some s)
    (guarded : Guarded Clients.step Clients.Meets (.boot regions) requests) :
    ∃ intact, s.Accounted regions (BitVec.ofNat 32 (regions.map MmRegion.size).sum) intact := by
  obtain ⟨total, used⟩ := boot_counters accepted
  have booted : (Clients.boot regions).Accounted regions (BitVec.ofNat 32 (regions.map MmRegion.size).sum)
      (System.boot regions).heap := by
    refine ⟨sound_boot valid nonNull, ?_, total⟩
    change (System.boot regions).heap.used.toNat = 0
    rw [used]
    rfl
  exact run_invariant_of_guarded
    (fun s => ∃ intact, s.Accounted regions (BitVec.ofNat 32 (regions.map MmRegion.size).sum) intact) ⟨_, booted⟩
    guarded ran fun ⟨_, accounted⟩ => accounted.step

/-- In every run whose requests do not wrap and are met when they come to the search, the bytes of the blocks that
the clients have are counted as used, and the bytes of the regions that are accepted as the total. -/
theorem heap_usage_counted (offered : List MmRegion)
    (valid : ValidRegions (offered.filter fun region => region.Accepted))
    (nonNull : ∀ region ∈ offered, region.Accepted → region.start ≠ 0) (requests : List Request) (s : Clients)
    (ran : run Clients.step (.boot offered) requests = some s)
    (guarded : Guarded Clients.step Clients.Meets (.boot offered) requests) :
    s.heap.used.toNat = s.inUse ∧
      s.heap.total.toNat = ((offered.filter fun region => region.Accepted).map MmRegion.size).sum := by
  rw [boot_filter] at ran guarded
  have accepted (region : MmRegion) (there : region ∈ offered.filter fun region => region.Accepted) :
      region.Accepted := of_decide_eq_true (List.mem_filter.mp there).2
  have real (region : MmRegion) (there : region ∈ offered.filter fun region => region.Accepted) :
      region.start ≠ 0 := nonNull region (List.mem_of_mem_filter there) (accepted region there)
  obtain ⟨intact, accounted⟩ := accounted_of_run valid real accepted ran guarded
  refine ⟨?_, ?_⟩
  · rw [accounted.sound.inUse, accounted.sound.agree.used]
    exact accounted.counted
  · rw [accounted.sound.agree.total, accounted.total, BitVec.toNat_ofNat]
    exact Nat.mod_eq_of_lt (valid.covered real)

/-- A block and a page are counted, and a region of 3 bytes is not. -/
theorem heap_usage_counted_twins :
    ∃ s, run Clients.step (.boot (⟨3, 3, 0⟩ :: twins)) [.kmalloc 100 0, .pageAlloc 0 0, .kfree 528] = some s ∧
      s.heap.used.toNat = s.inUse ∧ s.heap.total.toNat =
        (((⟨3, 3, 0⟩ :: twins).filter fun region => region.Accepted).map MmRegion.size).sum :=
  ⟨_, rfl, heap_usage_counted (⟨3, 3, 0⟩ :: twins) twins_valid (by decide)
    [.kmalloc 100 0, .pageAlloc 0 0, .kfree 528] _ rfl
    (by decide +kernel)⟩

/-- A request that fails in a region of 256 bytes is counted as 1024 used bytes. -/
theorem kmalloc_counts_failure :
    ∃ s, run Clients.step (.boot [⟨256, 256, MM_KERNEL⟩]) [.kmalloc 1000 0] = some s ∧
      s.held = ∅ ∧ s.pages = ∅ ∧ s.heap.used.toNat ≠ s.inUse :=
  ⟨_, rfl, by decide +kernel, by decide +kernel, by decide +kernel⟩

end Phabos.Mm
