import Phabos.Construction.Greybus.Receive
import Phabos.Proof.Kernel.SlabObjects

namespace Phabos.RxBuffer
open Library ByteMemory Greybus Function List Option

/-- The areas that are out do not overlap, and every slab of the cache lies in one of them. -/
structure Store.Stocked (store : Store) : Prop where
  clear : store.areas.Pairwise Clear
  accounted : store.bufferSlab.Accounted
  size : store.bufferSlab.cache.size = GREYBUS_MTU
  pages : ∀ page ∈ Slab.pagesAcquired store.bufferSlab.effects, (page.1, Purpose.slab) ∈ store.areas

/-- A buffer that the cache gave out and did not get back, or one that a cport got for its first messages -/
def Store.Owned (store : Store) (buffer : ℕ) : Prop :=
  buffer ∈ store.bufferSlab.live ∨ (buffer, Purpose.cport) ∈ store.areas

section Store
variable {store store' : Store} {answer : Answer} {buffer other address : ℕ} {purpose : Purpose}

theorem Clear.symm {one other : ℕ × Purpose} (clear : Clear one other) : Clear other one := Or.symm clear

section
variable (stocked : store.Stocked)
include stocked

theorem Store.Stocked.clear_of_ne {one other : ℕ × Purpose} (first : one ∈ store.areas) (second : other ∈ store.areas)
    (differ : one ≠ other) : Clear one other := by
  have symmetric : Std.Symm Clear := ⟨fun _ _ => Clear.symm⟩
  exact stocked.clear.forall first second differ

theorem Store.Stocked.bufferSize : store.bufferSlab.cache.bufferSize = Purpose.slab.bytes := by
  rw [Slab.Mcache.bufferSize, stocked.size]
  rfl

theorem Store.Stocked.room : store.bufferSlab.cache.size ≤ store.bufferSlab.cache.bufferSize := by
  rw [stocked.bufferSize, stocked.size]
  decide

theorem Store.Stocked.area (owned : store.Owned buffer) :
    ∃ area ∈ store.areas, (buffer ∈ store.bufferSlab.live ∧ area.2 = .slab ∨ area = (buffer, .cport)) ∧
      area.1 ≤ buffer ∧ buffer + GREYBUS_MTU ≤ area.1 + area.2.bytes := by
  rcases owned with live | page
  · obtain ⟨page, acquired, first, last⟩ := stocked.accounted.inside_pages live
    rw [stocked.size, stocked.bufferSize] at last
    exact ⟨_, stocked.pages page acquired, .inl ⟨live, rfl⟩, first, last⟩
  · exact ⟨_, page, .inr rfl, Nat.le_refl _, Nat.le_refl _⟩

theorem Store.Stocked.clear_of_owned (owned : store.Owned buffer) (there : (address, purpose) ∈ store.areas)
    (slab : purpose ≠ .slab) (differs : (address, purpose) ≠ (buffer, .cport)) :
    buffer + GREYBUS_MTU ≤ address ∨ address + purpose.bytes ≤ buffer := by
  obtain ⟨area, out, kind, first, last⟩ := stocked.area owned
  have distinct : area ≠ (address, purpose) := by
    rintro rfl
    rcases kind with ⟨-, same⟩ | same
    · exact slab same
    · exact differs same
  have clear := stocked.clear_of_ne out there distinct
  unfold Clear at clear
  dsimp only at clear
  omega

theorem Store.Stocked.not_page (live : buffer ∈ store.bufferSlab.live) : (buffer, Purpose.cport) ∉ store.areas := by
  intro there
  obtain ⟨page, acquired, first, last⟩ := stocked.accounted.inside_pages live
  rw [stocked.size, stocked.bufferSize] at last
  have clear := stocked.clear_of_ne (stocked.pages page acquired) there nofun
  have mtu : GREYBUS_MTU = 2048 := rfl
  have bytes : Purpose.cport.bytes = 2048 := rfl
  unfold Clear at clear
  dsimp only at clear
  omega

theorem Store.Stocked.apart (owned : store.Owned buffer) (also : store.Owned other) (differ : buffer ≠ other) :
    Slab.Apart GREYBUS_MTU buffer other := by
  rcases also with live | page
  · rcases owned with first | page
    · have symmetric : Std.Symm (Slab.Apart store.bufferSlab.cache.size) := ⟨fun _ _ => Slab.Apart.symm⟩
      have apart := stocked.accounted.disjoint.forall first live differ
      rwa [stocked.size] at apart
    · have distinct : (buffer, Purpose.cport) ≠ (other, Purpose.cport) := by
        intro same
        exact differ (Prod.mk.inj same).1
      have clear := stocked.clear_of_owned (.inl live) page nofun distinct
      exact clear.symm
  · have distinct : (other, Purpose.cport) ≠ (buffer, Purpose.cport) := by
      intro same
      exact differ (Prod.mk.inj same).1.symm
    exact stocked.clear_of_owned owned page nofun distinct

theorem Store.Stocked.read_other (owned : store.Owned buffer) (also : store.Owned other) (differ : buffer ≠ other)
    (memory : Memory) {bytes : List UInt8} (fits : bytes.length ≤ GREYBUS_MTU) {length : ℕ}
    (short : length ≤ GREYBUS_MTU) : read (write memory other bytes) buffer length = read memory buffer length := by
  have apart := stocked.apart owned also differ
  unfold Slab.Apart at apart
  exact read_write_outside (by omega)

theorem Store.Stocked.read_area (owned : store.Owned buffer) (there : (address, purpose) ∈ store.areas)
    (slab : purpose ≠ .slab) (cport : purpose ≠ .cport) (memory : Memory) {bytes : List UInt8}
    (fits : bytes.length ≤ purpose.bytes) {length : ℕ} (short : length ≤ GREYBUS_MTU) :
    read (write memory address bytes) buffer length = read memory buffer length := by
  have distinct : (address, purpose) ≠ (buffer, Purpose.cport) := by
    intro same
    exact cport (Prod.mk.inj same).2
  have clear := stocked.clear_of_owned owned there slab distinct
  exact read_write_outside (by omega)

theorem Store.Stocked.reserve (reserved : store.reserve address purpose = some store') :
    store'.Stocked ∧ store'.bufferSlab = store.bufferSlab ∧ store'.areas = (address, purpose) :: store.areas ∧
      ¬store.Owned address := by
  obtain ⟨⟨positive, free⟩, rfl⟩ := ite_some_none_eq_some.mp reserved
  refine ⟨⟨pairwise_cons.mpr ⟨free, stocked.clear⟩, stocked.accounted, stocked.size, ?_⟩, rfl, rfl, ?_⟩
  · intro page acquired
    exact mem_cons_of_mem _ (stocked.pages page acquired)
  · intro owned
    obtain ⟨area, out, -, first, last⟩ := stocked.area owned
    have clear := free area out
    have some : 0 < purpose.bytes := by
      cases purpose <;> decide
    have mtu : GREYBUS_MTU = 2048 := rfl
    unfold Clear at clear
    dsimp only at clear
    omega

theorem Store.Stocked.grow (grown : store.grow answer = some store') :
    store'.Stocked ∧ store'.bufferSlab = store.bufferSlab ∧
      (∀ a, ∀ p, p ≠ Purpose.slab → ((a, p) ∈ store'.areas ↔ (a, p) ∈ store.areas)) ∧
      (store.bufferSlab.cache.needsSlab → ∀ page, answer.1 = some page → (page, Purpose.slab) ∈ store'.areas) := by
  unfold Store.grow at grown
  split at grown
  · obtain ⟨page, given, reserved⟩ := bind_eq_some_iff.mp grown
    obtain ⟨stocked', same, areas, -⟩ := stocked.reserve reserved
    refine ⟨stocked', same, fun a p kind => ?_, fun _ page' given' => ?_⟩
    · rw [areas, mem_cons]
      refine or_iff_right fun equal => kind (Prod.mk.inj equal).2
    · obtain rfl := some.inj (given.symm.trans given')
      rw [areas]
      exact mem_cons_self
  · rename_i enough
    obtain rfl := some.inj grown
    exact ⟨stocked, rfl, fun _ _ _ => .rfl, fun needs => absurd needs enough⟩

theorem Store.Stocked.alloc (allocated : store.alloc answer = some (buffer, store')) :
    store'.Stocked ∧ ¬store.Owned buffer ∧ (∀ x, store'.Owned x ↔ store.Owned x ∨ x = buffer) ∧
      ∀ a, ∀ p, p ≠ Purpose.slab → ((a, p) ∈ store'.areas ↔ (a, p) ∈ store.areas) := by
  obtain ⟨middle, grown, allocated⟩ := bind_eq_some_iff.mp allocated
  obtain ⟨bufferSlab, stepped, allocated⟩ := bind_eq_some_iff.mp allocated
  obtain ⟨found, given, same⟩ := map_eq_some_iff.mp allocated
  obtain ⟨rfl, rfl⟩ := Prod.mk.inj same
  obtain ⟨stocked', kept, areas, pages⟩ := stocked.grow grown
  obtain ⟨live, fresh, effects, acquired⟩ := stocked'.accounted.alloc_pages stocked'.room stepped given
  obtain ⟨accounted, size⟩ := stocked'.accounted.step stocked'.room stepped
  have last : Store.Stocked { middle with bufferSlab := bufferSlab } := by
    refine ⟨stocked'.clear, accounted, size.trans stocked'.size, fun page there => ?_⟩
    change page ∈ Slab.pagesAcquired bufferSlab.effects at there
    rw [effects, Slab.pagesAcquired_append] at there
    rcases mem_append.mp there with before | new
    · exact stocked'.pages page before
    · obtain ⟨needs, same⟩ := acquired page new
      rw [kept] at needs
      exact pages needs page.1 same
  have owned (x : ℕ) : Store.Owned { middle with bufferSlab := bufferSlab } x ↔ store.Owned x ∨ x = found := by
    change (x ∈ bufferSlab.live ∨ (x, Purpose.cport) ∈ middle.areas) ↔ _
    rw [live, areas x .cport nofun, kept, mem_append, mem_singleton, Store.Owned]
    exact or_right_comm
  refine ⟨last, ?_, owned, areas⟩
  rintro (live' | page)
  · rw [kept] at fresh
    exact fresh live'
  · have inside : found ∈ bufferSlab.live := by
      rw [live]
      exact mem_append_right _ (mem_singleton_self _)
    exact last.not_page inside ((areas found .cport nofun).mpr page)

theorem Store.Stocked.free (freed : store.free buffer = some store') :
    store'.Stocked ∧ (∀ x, x ≠ buffer → (store'.Owned x ↔ store.Owned x)) ∧ (∀ x, store'.Owned x → store.Owned x) ∧
      store'.areas = store.areas := by
  obtain ⟨bufferSlab, stepped, same⟩ := map_eq_some_iff.mp freed
  subst same
  obtain ⟨accounted, size⟩ := stocked.accounted.step stocked.room stepped
  obtain ⟨-, rfl⟩ := ite_some_none_eq_some.mp stepped
  refine ⟨⟨stocked.clear, accounted, size.trans stocked.size, stocked.pages⟩, fun x differs => ?_, fun x owned => ?_,
    rfl⟩
  · exact or_congr_left (mem_erase_of_ne differs)
  · exact owned.imp_left mem_of_mem_erase

theorem Store.Stocked.closeTape (address : ℕ) :
    Store.Stocked { store with areas := store.areas.erase (address, .replay) } where
  clear := stocked.clear.sublist erase_sublist
  accounted := stocked.accounted
  size := stocked.size
  pages := by
    intro page acquired
    have differs : (page.1, Purpose.slab) ≠ (address, .replay) := by
      intro same
      cases (Prod.mk.inj same).2
    exact (mem_erase_of_ne differs).mpr (stocked.pages page acquired)

end

end Store

/-- Every object of `op_slab` and every cport has a buffer of its own. -/
structure Placed (store : Store) (requestBuffer : ℕ → ℕ) (installed : ℕ → Option ℕ) (objects : List ℕ) : Prop where
  stocked : store.Stocked
  owned : ∀ op ∈ objects, store.Owned (requestBuffer op)
  once : ∀ op ∈ objects, ∀ op' ∈ objects, requestBuffer op = requestBuffer op' → op = op'
  ports : ∀ cport buffer, installed cport = some buffer → store.Owned buffer
  single : ∀ cport cport' buffer, installed cport = some buffer → installed cport' = some buffer → cport = cport'
  separate : ∀ op ∈ objects, ∀ cport, installed cport ≠ some (requestBuffer op)

section Placed
variable {store store' : Store} {requestBuffer requestBuffer' : ℕ → ℕ} {installed : ℕ → Option ℕ}
  {objects ops : List ℕ} {op cport data buffer : ℕ} {answer : Answer}

theorem Placed.construct (placed : Placed store requestBuffer installed objects)
    (allocated : store.alloc answer = some (buffer, store')) (op : ℕ) :
    Placed store' (update requestBuffer op buffer) installed (objects ++ [op]) := by
  obtain ⟨stocked, new, owned, -⟩ := placed.stocked.alloc allocated
  have others (x : ℕ) (there : x ∈ objects ++ [op]) (differs : x ≠ op) : x ∈ objects := by
    rcases mem_append.mp there with before | same
    · exact before
    · exact absurd (mem_singleton.mp same) differs
  refine ⟨stocked, ?_, ?_, ?_, placed.single, ?_⟩
  · intro x there
    rw [owned]
    by_cases same : x = op
    · rw [same, update_self]
      exact .inr rfl
    · rw [update_of_ne same]
      exact .inl (placed.owned x (others x there same))
  · intro x there y also equal
    by_cases first : x = op
    · by_cases second : y = op
      · rw [first, second]
      · rw [first, update_self, update_of_ne second] at equal
        exact absurd (equal ▸ placed.owned y (others y also second)) new
    · by_cases second : y = op
      · rw [second, update_self, update_of_ne first] at equal
        exact absurd (equal ▸ placed.owned x (others x there first)) new
      · rw [update_of_ne first, update_of_ne second] at equal
        exact placed.once x (others x there first) y (others y also second) equal
  · intro cport data found
    exact (owned data).mpr (.inl (placed.ports cport data found))
  · intro x there cport found
    by_cases same : x = op
    · rw [same, update_self] at found
      exact new (placed.ports cport buffer found)
    · rw [update_of_ne same] at found
      exact placed.separate x (others x there same) cport found

theorem Placed.ctors (placed : Placed store requestBuffer installed objects) (answers : ℕ → Answer)
    (constructed : operationCtors store requestBuffer ops answers = some (store', requestBuffer')) :
    Placed store' requestBuffer' installed (objects ++ ops) ∧ (∀ x, x ∉ ops → requestBuffer' x = requestBuffer x) ∧
      ∀ a, ∀ p, p ≠ Purpose.slab → ((a, p) ∈ store'.areas ↔ (a, p) ∈ store.areas) := by
  induction ops generalizing store requestBuffer objects answers with
  | nil =>
    obtain ⟨rfl, rfl⟩ := Prod.mk.inj (some.inj constructed)
    rw [append_nil]
    exact ⟨placed, fun _ _ => rfl, fun _ _ _ => .rfl⟩
  | cons op rest ih =>
    obtain ⟨⟨buffer, middle⟩, allocated, later⟩ := bind_eq_some_iff.mp constructed
    obtain ⟨last, kept, areas⟩ := ih (placed.construct allocated op) _ later
    obtain ⟨-, -, -, same⟩ := placed.stocked.alloc allocated
    rw [append_assoc] at last
    refine ⟨last, fun x absent => ?_, fun a p kind => (areas a p kind).trans (same a p kind)⟩
    rw [mem_cons, not_or] at absent
    rw [kept x absent.2, update_of_ne absent.1]

theorem update_single (single : ∀ x y b, installed x = some b → installed y = some b → x = y)
    (unused : ∀ x, installed x ≠ some buffer) (cport x y b : ℕ)
    (first : update installed cport (some buffer) x = some b)
    (second : update installed cport (some buffer) y = some b) : x = y := by
  by_cases one : x = cport
  · by_cases two : y = cport
    · rw [one, two]
    · rw [one, update_self] at first
      rw [update_of_ne two, ← first] at second
      exact absurd second (unused y)
  · by_cases two : y = cport
    · rw [two, update_self] at second
      rw [update_of_ne one, ← second] at first
      exact absurd first (unused x)
    · rw [update_of_ne one] at first
      rw [update_of_ne two] at second
      exact single x y b first second

section
variable (placed : Placed store requestBuffer installed objects)
include placed

theorem Placed.switch (there : op ∈ objects) (current : installed cport = some data) {middle : Store}
    (freed : store.free (requestBuffer op) = some middle) (allocated : middle.alloc answer = some (buffer, store')) :
    Placed store' (update requestBuffer op data) (update installed cport (some buffer)) objects ∧
      ∀ a, ∀ p, p ≠ Purpose.slab → ((a, p) ∈ store'.areas ↔ (a, p) ∈ store.areas) := by
  obtain ⟨stocked, kept, -, areas⟩ := placed.stocked.free freed
  obtain ⟨stocked', new, owned, areas'⟩ := stocked.alloc allocated
  have left (x : ℕ) (differs : x ≠ requestBuffer op) (before : store.Owned x) : middle.Owned x :=
    (kept x differs).mpr before
  have others (x : ℕ) (member : x ∈ objects) (differs : x ≠ op) : middle.Owned (requestBuffer x) := by
    refine left _ (fun same => differs ?_) (placed.owned x member)
    exact placed.once x member op there same
  have ports (x b : ℕ) (found : installed x = some b) : middle.Owned b := by
    refine left b (fun same => ?_) (placed.ports x b found)
    exact placed.separate op there x (same ▸ found)
  have unused (x : ℕ) (differs : x ∈ objects) : requestBuffer x ≠ data := by
    intro same
    exact placed.separate x differs cport (same ▸ current)
  refine ⟨⟨stocked', ?_, ?_, ?_, ?_, ?_⟩, fun a p kind => ?_⟩
  · intro x member
    rw [owned]
    by_cases same : x = op
    · rw [same, update_self]
      exact .inl (ports cport data current)
    · rw [update_of_ne same]
      exact .inl (others x member same)
  · intro x member y also equal
    by_cases first : x = op
    · by_cases second : y = op
      · rw [first, second]
      · rw [first, update_self, update_of_ne second] at equal
        exact absurd equal.symm (unused y also)
    · by_cases second : y = op
      · rw [second, update_self, update_of_ne first] at equal
        exact absurd equal (unused x member)
      · rw [update_of_ne first, update_of_ne second] at equal
        exact placed.once x member y also equal
  · intro x b found
    rw [owned]
    by_cases same : x = cport
    · rw [same, update_self] at found
      exact .inr (some.inj found).symm
    · rw [update_of_ne same] at found
      exact .inl (ports x b found)
  · exact update_single placed.single (fun x found => new (ports x buffer found)) cport
  · intro x member y found
    by_cases one : y = cport
    · rw [one, update_self, some.injEq] at found
      by_cases same : x = op
      · rw [same, update_self] at found
        exact new (found ▸ ports cport data current)
      · rw [update_of_ne same] at found
        exact new (found ▸ others x member same)
    · rw [update_of_ne one] at found
      by_cases same : x = op
      · rw [same, update_self] at found
        exact one (placed.single y cport data found current)
      · rw [update_of_ne same] at found
        exact placed.separate x member y found
  · rw [areas' a p kind, areas]

theorem Placed.initCport (reserved : store.reserve buffer .cport = some store') (cport : ℕ) :
    Placed store' requestBuffer (update installed cport (some buffer)) objects := by
  obtain ⟨stocked, slab, areas, new⟩ := placed.stocked.reserve reserved
  have kept (x : ℕ) (owned : store.Owned x) : store'.Owned x := by
    unfold Store.Owned
    rw [slab, areas]
    exact owned.imp_right (mem_cons_of_mem _)
  refine ⟨stocked, fun x member => kept _ (placed.owned x member), placed.once, ?_, ?_, ?_⟩
  · intro x b found
    by_cases same : x = cport
    · rw [same, update_self, some.injEq] at found
      refine .inr ?_
      rw [areas, ← found]
      exact mem_cons_self
    · rw [update_of_ne same] at found
      exact kept b (placed.ports x b found)
  · exact update_single placed.single (fun x found => new (placed.ports x buffer found)) cport
  · intro x member y found
    by_cases one : y = cport
    · rw [one, update_self, some.injEq] at found
      exact new (found ▸ placed.owned x member)
    · rw [update_of_ne one] at found
      exact placed.separate x member y found

theorem Placed.restock (stocked : store'.Stocked) (owned : ∀ x, store.Owned x → store'.Owned x) :
    Placed store' requestBuffer installed objects where
  stocked := stocked
  owned := fun x member => owned _ (placed.owned x member)
  once := placed.once
  ports := fun x b found => owned b (placed.ports x b found)
  single := placed.single
  separate := placed.separate

end

end Placed

end Phabos.RxBuffer
