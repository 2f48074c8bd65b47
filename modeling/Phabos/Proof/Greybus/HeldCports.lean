import Phabos.Construction.Greybus.CportPool
import Phabos.Library.Effects
import Phabos.Library.Search
import Phabos.Proof.Hashtable.ProbeChain

namespace Phabos.CportPool
open Library List Option

abbrev Table := Hashtable (BitVec 32) (BitVec 32)

/-- The slot of a held id -/
def heldNode (i : ℕ) : HashtableNode (BitVec 32) (BitVec 32) := ⟨BitVec.ofNat 32 i, 1, true, false⟩

/-- Each held id is in the slot with its number, in the first half of the table, and the second half is fresh. -/
structure Direct (ht : Table) (held : Finset ℕ) : Prop where
  keys : ht.keys = uintKeys
  size : 8 ≤ ht.size
  fits : ht.size * nodeSize < addressSpace
  used : ∀ i ∈ held, ht.table i = heldNode i
  unused : ∀ i ∉ held, (ht.table i).isUsed = false
  fresh : ∀ i, ht.size / 2 ≤ i → (ht.table i).isDeleted = false
  small : ∀ i ∈ held, i < ht.size / 2
  count : ht.count = held.card
  room : held.card < ht.size / 2

section Table
variable {ht : Table} {held : Finset ℕ} {i : ℕ} {key : BitVec 32}

theorem Direct.size_lt (direct : Direct ht held) : ht.size < 2 ^ 32 := by
  have fits := direct.fits
  unfold nodeSize addressSpace at fits
  omega

theorem Direct.positive (direct : Direct ht held) : 0 < ht.size := Nat.lt_of_lt_of_le (by decide) direct.size

theorem Direct.hash (direct : Direct ht held) (less : key.toNat < ht.size) :
    ht.keys.hash ht.size key = key.toNat := by
  rw [direct.keys]
  exact Nat.mod_eq_of_lt less

theorem Direct.toNat_ofNat (direct : Direct ht held) (less : i < ht.size) : (BitVec.ofNat 32 i).toNat = i := by
  rw [BitVec.toNat_ofNat]
  exact Nat.mod_eq_of_lt (Nat.lt_trans less direct.size_lt)

theorem getNode_hash {findDeleted : Bool} (positive : 0 < ht.size)
    (stops : ht.stops key findDeleted (ht.keys.hash ht.size key) = true) :
    ht.getNode key findDeleted = some (ht.keys.hash ht.size key) := by
  refine (Hashtable.getNode_eq_some_iff positive key findDeleted _).mpr ⟨0, positive, ?_, stops, nofun⟩
  exact ringSlot_zero (Hashtable.hash_lt positive key)

theorem Direct.getNode_held (direct : Direct ht held) (there : key.toNat ∈ held) :
    ht.getNode key false = some key.toNat := by
  have small := direct.small _ there
  have hash : ht.keys.hash ht.size key = key.toNat := direct.hash (by omega)
  have node := direct.used _ there
  rw [← hash]
  refine getNode_hash direct.positive ((Hashtable.stops_false_iff ht key _).mpr ⟨fun _ => ?_, ?_⟩)
  · rw [hash, node]
    exact BitVec.ofNat_toNat _ _
  · rw [hash, node]
    rfl

theorem Direct.getNode_free (direct : Direct ht held) (free : key.toNat ∉ held) :
    ∃ node, ht.getNode key false = some node ∧ (ht.table node).isUsed = false := by
  have half : ht.size / 2 ∉ held := fun there => Nat.lt_irrefl _ (direct.small _ there)
  have stop : ht.stops key false (ht.size / 2) = true := by
    refine (Hashtable.stops_false_iff ht key _).mpr ⟨fun used => ?_, direct.fresh _ (Nat.le_refl _)⟩
    rw [direct.unused _ half] at used
    cases used
  have eight := direct.size
  have start := Hashtable.hash_lt direct.positive key
  obtain ⟨node, found⟩ := (probe_isSome_iff start).mpr ⟨ht.size / 2, by omega, stop⟩
  obtain ⟨inside, stops⟩ := probe_stop start found
  refine ⟨node, found, ?_⟩
  by_contra used
  have same := ((Hashtable.stops_false_iff ht key node).mp stops).1 (Bool.eq_true_of_not_eq_false used)
  by_cases there : node ∈ held
  · rw [direct.used _ there] at same
    have number := congrArg BitVec.toNat same
    have own : (BitVec.ofNat 32 node).toNat = node := direct.toNat_ofNat inside
    exact free (number ▸ own.symm ▸ there)
  · exact used (direct.unused _ there)

theorem Direct.has (direct : Direct ht held) (key : BitVec 32) : ht.has key = some (decide (key.toNat ∈ held)) := by
  unfold Hashtable.has Hashtable.get
  by_cases there : key.toNat ∈ held
  · rw [direct.getNode_held there, map_some, map_some, direct.used _ there, decide_eq_true there]
    rfl
  · obtain ⟨node, found, unused⟩ := direct.getNode_free there
    rw [found, map_some, map_some, unused, decide_eq_false there]
    rfl

theorem Direct.findSlot (direct : Direct ht held) (free : i ∉ held) (less : i < ht.size) :
    ht.findSlot (BitVec.ofNat 32 i) = some i := by
  have number := direct.toNat_ofNat less
  have freeKey : (BitVec.ofNat 32 i).toNat ∉ held := number.symm ▸ free
  obtain ⟨node, found, unused⟩ := direct.getNode_free freeKey
  have hash : ht.keys.hash ht.size (BitVec.ofNat 32 i) = i := (direct.hash (number.symm ▸ less)).trans number
  have stop : ht.stops (BitVec.ofNat 32 i) true (ht.keys.hash ht.size (BitVec.ofNat 32 i)) = true := by
    refine (Hashtable.stops_true_iff ht _ _).mpr fun used => ?_
    rw [hash, direct.unused _ free] at used
    cases used
  unfold Hashtable.findSlot
  rw [found, bind_some, unused, if_neg Bool.false_ne_true, getNode_hash direct.positive stop, hash]

/-- The table with a new id -/
def entered (ht : Table) (i : ℕ) : Table := ht.store i (BitVec.ofNat 32 i) 1

theorem entered_table (ht : Table) (i j : ℕ) : (entered ht i).table j = if j = i then heldNode i else ht.table j := by
  unfold entered Hashtable.store
  exact Function.update_apply _ _ _ _

theorem Direct.entered_count (direct : Direct ht held) (free : i ∉ held) :
    (entered ht i).count = (insert i held).card := by
  unfold entered Hashtable.store
  rw [direct.unused _ free, if_neg Bool.false_ne_true, direct.count, Finset.card_insert_of_notMem free]

/-- What a table has when an id is entered, whether or not it has room -/
structure Entered (ht : Table) (held : Finset ℕ) : Prop where
  used : ∀ i ∈ held, ht.table i = heldNode i
  unused : ∀ i ∉ held, (ht.table i).isUsed = false
  small : ∀ i ∈ held, i < ht.size / 2

theorem Direct.entered (direct : Direct ht held) (less : i < ht.size / 2) : Entered (entered ht i) (insert i held) := by
  refine ⟨fun j there => ?_, fun j apart => ?_, fun j there => ?_⟩
  · rw [entered_table]
    split
    · rename_i same
      rw [same]
    · exact direct.used _ (Finset.mem_of_mem_insert_of_ne there ‹_›)
  · obtain ⟨other, free⟩ := not_or.mp (mt Finset.mem_insert.mpr apart)
    rw [entered_table, if_neg other]
    exact direct.unused _ free
  · rcases Finset.mem_insert.mp there with rfl | old
    · exact less
    · exact direct.small _ old

theorem Direct.enter (direct : Direct ht held) (free : i ∉ held) (less : i < ht.size / 2)
    (room : held.card + 1 < ht.size / 2) : Direct (CportPool.entered ht i) (insert i held) := by
  have all := direct.entered less
  refine ⟨direct.keys, direct.size, direct.fits, all.used, all.unused, fun j second => ?_, all.small,
    direct.entered_count free, ?_⟩
  · rw [entered_table]
    split
    · rfl
    · exact direct.fresh _ second
  · rw [Finset.card_insert_of_notMem free]
    exact room

theorem Direct.addAt (direct : Direct ht held) (free : i ∉ held) (less : i < ht.size / 2)
    (room : held.card + 1 < ht.size / 2) (depth : ℕ) :
    Hashtable.addAt (depth + 1) ht (BitVec.ofNat 32 i) 1 = some (CportPool.entered ht i) := by
  have size : (ht.store i (BitVec.ofNat 32 i) 1).size = ht.size := rfl
  have count : (ht.store i (BitVec.ofNat 32 i) 1).count = held.card + 1 :=
    (direct.entered_count free).trans (Finset.card_insert_of_notMem free)
  unfold Hashtable.addAt
  rw [direct.findSlot free (by omega), bind_some]
  dsimp only
  rw [size, count, if_neg (Nat.not_le.mpr room)]
  rfl

theorem resize_loop {old start : Table} {held : Finset ℕ} (all : Entered old held) (direct : Direct start ∅)
    (size : start.size = old.size * 2) (card : held.card ≤ old.size / 2) (eight : 8 ≤ old.size) (done : ℕ) :
    ∃ next, (range done).foldlM
        (fun next i => if (old.table i).isUsed then Hashtable.addAt 1 next (old.table i).key (old.table i).value
          else some next) start = some next ∧
      Direct next (held.filter (· < done)) ∧ next.size = start.size := by
  induction done with
  | zero =>
    refine ⟨start, rfl, ?_, rfl⟩
    rw [Finset.filter_false_of_mem fun i _ => Nat.not_lt_zero i]
    exact direct
  | succ done ih =>
    obtain ⟨next, looped, sofar, same⟩ := ih
    rw [range_succ, foldlM_append, looped]
    by_cases there : done ∈ held
    · have node := all.used _ there
      have small := all.small _ there
      have free : done ∉ held.filter (· < done) := fun again => Nat.lt_irrefl _ (Finset.mem_filter.mp again).2
      have fewer : (held.filter (· < done)).card ≤ held.card := Finset.card_filter_le _ _
      have added := sofar.addAt free (by omega) (by omega) 0
      have more : held.filter (· < done + 1) = insert done (held.filter (· < done)) := by
        ext j
        simp only [Finset.mem_filter, Finset.mem_insert]
        constructor
        · rintro ⟨held, less⟩
          by_cases last : j = done
          · exact .inl last
          · exact .inr ⟨held, by omega⟩
        · rintro (rfl | ⟨held, less⟩)
          · exact ⟨there, Nat.lt_succ_self _⟩
          · exact ⟨held, by omega⟩
      refine ⟨CportPool.entered next done, ?_, more ▸ sofar.enter free (by omega) (by omega), same⟩
      simp only [foldlM_cons, foldlM_nil, bind_eq_bind, bind_some, node]
      exact (congrArg (bind · some) added).trans rfl
    · have none : held.filter (· < done + 1) = held.filter (· < done) := by
        refine Finset.filter_congr fun j held => ⟨fun less => ?_, fun less => by omega⟩
        have other : j ≠ done := fun same => there (same ▸ held)
        omega
      refine ⟨next, ?_, none ▸ sofar, same⟩
      simp only [foldlM_cons, foldlM_nil, bind_eq_bind, bind_some, all.unused _ there,
        Bool.false_eq_true, if_false]
      rfl

theorem direct_cleared {size : ℕ} (keys : ht.keys = uintKeys) (eight : 8 ≤ size) (fits : size * nodeSize < addressSpace) :
    Direct { ht with table := fun _ => Hashtable.clearedNode, size := size, count := 0 } ∅ := by
  refine ⟨keys, eight, fits, nofun, fun _ _ => rfl, fun _ _ => rfl, nofun, rfl, ?_⟩
  show 0 < size / 2
  omega

theorem Direct.add_grows (direct : Direct ht held) (free : i ∉ held) (less : i < ht.size / 2)
    (full : ht.size / 2 ≤ held.card + 1) (fits : ht.size * 2 * nodeSize < addressSpace) :
    ∃ next, ht.add (BitVec.ofNat 32 i) 1 = some next ∧ Direct next (insert i held) ∧ next.size = ht.size * 2 := by
  have eight := direct.size
  have room := direct.room
  have count : (CportPool.entered ht i).count = held.card + 1 :=
    (direct.entered_count free).trans (Finset.card_insert_of_notMem free)
  have size : (CportPool.entered ht i).size = ht.size := rfl
  have cleared : Direct { CportPool.entered ht i with
      table := fun _ => Hashtable.clearedNode, size := ht.size * 2, count := 0 } ∅ :=
    direct_cleared direct.keys (by omega) fits
  have card : (insert i held).card ≤ ht.size / 2 := by
    rw [Finset.card_insert_of_notMem free]
    exact room
  obtain ⟨next, looped, sofar, same⟩ := resize_loop (direct.entered less) cleared rfl card eight ht.size
  have whole : (insert i held).filter (· < ht.size) = insert i held := by
    refine Finset.filter_true_of_mem fun j there => ?_
    have small := (direct.entered less).small j there
    exact Nat.lt_of_lt_of_le small (Nat.div_le_self _ _)
  refine ⟨next, ?_, whole ▸ sofar, same⟩
  unfold Hashtable.add Hashtable.addAt
  rw [direct.findSlot free (by omega), bind_some]
  change (if (CportPool.entered ht i).size / 2 ≤ (CportPool.entered ht i).count then
    Hashtable.resizeWith (Hashtable.addAt 1) (CportPool.entered ht i) ((CportPool.entered ht i).size * 2) else _) = _
  rw [size, count, if_pos full]
  exact looped

theorem Direct.add_stays (direct : Direct ht held) (free : i ∉ held) (less : i < ht.size / 2)
    (room : held.card + 1 < ht.size / 2) :
    ht.add (BitVec.ofNat 32 i) 1 = some (CportPool.entered ht i) := direct.addAt free less room 1

theorem Direct.remove (direct : Direct ht held) (there : key.toNat ∈ held) :
    ∃ next, ht.remove key = some next ∧ Direct next (held.erase key.toNat) ∧ next.size = ht.size := by
  have small := direct.small _ there
  have node := direct.used _ there
  have table (j : ℕ) : (ht.discard key.toNat).table j =
      if j = key.toNat then ⟨default, default, false, true⟩ else ht.table j := Function.update_apply _ _ _ _
  refine ⟨ht.discard key.toNat, ?_, ?_, rfl⟩
  · unfold Hashtable.remove
    rw [direct.getNode_held there, map_some, node]
    rfl
  · have fewer : (held.erase key.toNat).card = held.card - 1 := Finset.card_erase_of_mem there
    have room := direct.room
    refine ⟨direct.keys, direct.size, direct.fits, fun j kept => ?_, fun j apart => ?_, fun j second => ?_,
      fun j kept => direct.small _ (Finset.mem_of_mem_erase kept), ?_, ?_⟩
    · obtain ⟨other, old⟩ := Finset.mem_erase.mp kept
      rw [table, if_neg other]
      exact direct.used _ old
    · rw [table]
      split
      · rfl
      · exact direct.unused _ fun old => apart (Finset.mem_erase.mpr ⟨‹_›, old⟩)
    · have size : (ht.discard key.toNat).size = ht.size := rfl
      rw [size] at second
      rw [table, if_neg (by omega)]
      exact direct.fresh _ second
    · rw [fewer, ← direct.count]
      rfl
    · rw [fewer]
      show held.card - 1 < ht.size / 2
      omega

theorem Direct.first_small (direct : Direct ht held) (before : ∀ j < i, j ∈ held) : i < ht.size / 2 := by
  have some : Finset.range i ⊆ held := fun j there => before j (Finset.mem_range.mp there)
  have card := Finset.card_le_card some
  rw [Finset.card_range] at card
  exact Nat.lt_of_le_of_lt card direct.room

end Table

/-- The table has the ids that are held, and its block is allocated. -/
structure Sound (s : System) : Prop where
  direct : Direct s.cportMap s.held
  table : .table s.cportMap.size ∈ s.heap

/-- The heap is as before, or the table of the pool has been replaced by one of twice the size. -/
inductive SameHeap (s next : System) : Prop
  | same (size : next.cportMap.size = s.cportMap.size) (heap : next.heap = s.heap)
  | grown (size : next.cportMap.size = s.cportMap.size * 2)
      (heap : next.heap = (.table (s.cportMap.size * 2) :: s.heap).erase (.table s.cportMap.size))

/-- Where there is one more id and the table has to grow for it, there is memory for a table of twice the size. -/
def System.MemoryFor (s : System) (cportCount : ℕ) (memory : ℕ → Bool) : Prop :=
  (∃ i < cportCount, i ∉ s.held) → s.cportMap.size / 2 ≤ s.held.card + 1 →
    s.cportMap.size * 2 * nodeSize < addressSpace ∧ memory (s.cportMap.size * 2) = true

section Code
variable {s : System} {memory : ℕ → Bool} {cportCount : ℕ}

theorem SameHeap.sound {next : System} (sound : Sound s) (same : SameHeap s next)
    (direct : Direct next.cportMap next.held) : Sound next := by
  refine ⟨direct, ?_⟩
  cases same with
  | same size heap =>
    rw [size, heap]
    exact sound.table
  | grown size heap =>
    have positive := sound.direct.positive
    have other : Block.table (s.cportMap.size * 2) ≠ .table s.cportMap.size := by
      intro equal
      have sizes := Block.table.inj equal
      omega
    rw [size, heap]
    exact (mem_erase_of_ne other).mpr mem_cons_self

theorem SameHeap.history {next : System} (same : SameHeap s next) (held : Finset ℕ) :
    SameHeap s { next with held := held } := by
  cases same with
  | same size heap => exact .same size heap
  | grown size heap => exact .grown size heap

theorem hashtableHas_run (sound : Sound s) (key : BitVec 32) :
    runFrom (hashtableHas key) s = (.ok (decide (key.toNat ∈ s.held)), s) := by
  unfold hashtableHas
  rw [runFrom_bind, runFrom_get]
  dsimp only
  rw [sound.direct.has key]
  rfl

theorem hashtableAdd_run (sound : Sound s) {i : ℕ} (absent : i ∉ s.held) (less : i < s.cportMap.size / 2)
    (enough : s.cportMap.size / 2 ≤ s.held.card + 1 →
      s.cportMap.size * 2 * nodeSize < addressSpace ∧ memory (s.cportMap.size * 2) = true) :
    ∃ next, runFrom (hashtableAdd memory (BitVec.ofNat 32 i) 1) s = (.ok (), next) ∧
      Direct next.cportMap (insert i s.held) ∧ next.held = s.held ∧ SameHeap s next := by
  by_cases room : s.held.card + 1 < s.cportMap.size / 2
  · have size : (entered s.cportMap i).size = s.cportMap.size := rfl
    have added := sound.direct.add_stays absent less room
    refine ⟨{ s with cportMap := entered s.cportMap i }, ?_, sound.direct.enter absent less room, rfl, .same rfl rfl⟩
    unfold hashtableAdd
    rw [runFrom_bind, runFrom_get]
    dsimp only
    rw [added]
    dsimp only
    rw [if_pos size]
    rfl
  · have full := Nat.le_of_not_lt room
    obtain ⟨fits, allocated⟩ := enough full
    obtain ⟨grown, added, direct, size⟩ := sound.direct.add_grows absent less full fits
    have positive := sound.direct.positive
    have there : Block.table s.cportMap.size ∈ Block.table grown.size :: s.heap := mem_cons_of_mem _ sound.table
    refine ⟨{ s with
      cportMap := grown, heap := (.table grown.size :: s.heap).erase (.table s.cportMap.size) }, ?_, direct, rfl,
      .grown size (by rw [size])⟩
    unfold hashtableAdd
    rw [runFrom_bind, runFrom_get]
    dsimp only
    rw [added]
    dsimp only
    rw [if_neg (by omega), if_pos ⟨size ▸ fits, size ▸ allocated⟩]
    show runFrom (free (.table s.cportMap.size)) { s with cportMap := grown, heap := .table grown.size :: s.heap } = _
    unfold free
    rw [runFrom_bind, runFrom_get]
    dsimp only
    rw [if_pos there]
    rfl

/-- What `gb_cport_allocate` does: it returns the smallest id that is not held, or an error when all are -/
def Allocates (cportCount : ℕ) (s : System) (outcome : Except Ending Int × System) : Prop :=
  (∀ i < cportCount, i ∈ s.held) ∧ outcome = (.ok (- EBUSY), s) ∨
    ∃ i < cportCount, First (· ∉ s.held) i ∧ ∃ next, outcome = (.ok (i : Int), next) ∧
      next.held = insert i s.held ∧ SameHeap s next ∧ Sound next

theorem allocateFrom_run (sound : Sound s) {left i : ℕ} (enough : s.MemoryFor (i + left) memory)
    (before : ∀ j < i, j ∈ s.held) :
    Allocates (i + left) s (runFrom (allocateFrom memory left i) s) := by
  induction left generalizing i with
  | zero => exact .inl ⟨before, rfl⟩
  | succ left ih =>
    have small := sound.direct.first_small before
    have size := sound.direct.size_lt
    have number : (BitVec.ofNat 32 i).toNat = i := sound.direct.toNat_ofNat (by omega)
    have has := hashtableHas_run sound (BitVec.ofNat 32 i)
    rw [number] at has
    unfold allocateFrom
    rw [runFrom_bind, has]
    dsimp only
    by_cases there : i ∈ s.held
    · have later : ∀ j < i + 1, j ∈ s.held := by
        intro j less
        rcases Nat.lt_succ_iff_lt_or_eq.mp less with earlier | rfl
        · exact before j earlier
        · exact there
      rw [Nat.add_comm left, ← Nat.add_assoc] at enough
      rw [decide_eq_true there, if_pos rfl, Nat.add_comm left, ← Nat.add_assoc]
      exact ih enough later
    · have inside : i < i + (left + 1) := Nat.lt_add_of_pos_right (Nat.succ_pos left)
      obtain ⟨next, ran, direct, held, same⟩ := hashtableAdd_run sound there small (enough ⟨i, inside, there⟩)
      have returned : (BitVec.ofNat 32 i).toInt = i := by
        rw [BitVec.toInt_eq_toNat_of_lt (by omega), number]
      rw [decide_eq_false there, if_neg Bool.false_ne_true, runFrom_bind, ran]
      refine .inr ⟨i, inside, ⟨there, fun j less => not_not_intro (before j less)⟩,
        { next with held := insert i next.held }, ?_, congrArg (insert i) held, ?_, ?_⟩
      · show (Except.ok (BitVec.ofNat 32 i).toInt, _) = _
        rw [returned]
      · exact same.history _
      · refine (same.history _).sound sound ?_
        rw [held]
        exact direct

theorem gbCportAllocate_run (sound : Sound s) (enough : s.MemoryFor cportCount memory) :
    Allocates cportCount s (runFrom (gbCportAllocate cportCount memory) s) := by
  rw [← Nat.zero_add cportCount] at enough
  have allocates : Allocates (0 + cportCount) s (runFrom (allocateFrom memory cportCount 0) s) :=
    allocateFrom_run sound enough nofun
  rwa [Nat.zero_add] at allocates

theorem gbCportDeallocate_run (sound : Sound s) (cport : BitVec 32) :
    ∃ next, runFrom (gbCportDeallocate cport) s = (.ok (), next) ∧ next.held = s.held.erase cport.toNat ∧
      next.heap = s.heap ∧ next.cportMap.size = s.cportMap.size ∧ Sound next := by
  by_cases there : cport.toNat ∈ s.held
  · obtain ⟨table, removed, direct, size⟩ := sound.direct.remove there
    refine ⟨{ s with cportMap := table, held := s.held.erase cport.toNat }, ?_, rfl, rfl, size, direct, ?_⟩
    · unfold gbCportDeallocate
      rw [runFrom_bind, hashtableHas_run sound, decide_eq_true there]
      dsimp only
      rw [if_pos rfl]
      unfold hashtableRemove
      rw [runFrom_bind, runFrom_bind, runFrom_get]
      dsimp only
      rw [removed]
      rfl
    · show Block.table table.size ∈ s.heap
      rw [size]
      exact sound.table
  · have erased : s.held.erase cport.toNat = s.held := Finset.erase_eq_of_notMem there
    refine ⟨{ s with held := s.held.erase cport.toNat }, ?_, rfl, rfl, rfl, ?_, sound.table⟩
    · unfold gbCportDeallocate
      rw [runFrom_bind, hashtableHas_run sound, decide_eq_false there]
      dsimp only
      rw [if_neg Bool.false_ne_true]
      rfl
    · show Direct s.cportMap (s.held.erase cport.toNat)
      rw [erased]
      exact sound.direct

/-- A state in which one more id is held than before, for a connection -/
structure Taken (s middle : System) (i : ℕ) : Prop where
  absent : i ∉ s.held
  held : middle.held = insert i s.held
  heap : SameHeap s middle
  sound : Sound middle

/-- The outcome of a connection that fails: the ids that were held before, and the heap as it was -/
def Released (s : System) (retval : Int) (outcome : Except Ending Int × System) : Prop :=
  ∃ next, outcome = (.ok retval, next) ∧ next.held = s.held ∧ SameHeap s next ∧ Sound next

section
variable {middle : System} {i : ℕ} (taken : Taken s middle i)
include taken

theorem Taken.number : (BitVec.ofNat 32 i).toNat = i := by
  have there : i ∈ middle.held := taken.held ▸ Finset.mem_insert_self i s.held
  have small := taken.sound.direct.small i there
  exact taken.sound.direct.toNat_ofNat (by omega)

theorem Taken.errorCreateDevice (retval : Int) :
    Released s retval (runFrom (errorCreateDevice (BitVec.ofNat 32 i) retval) middle) := by
  obtain ⟨next, ran, held, heap, size, sound⟩ := gbCportDeallocate_run taken.sound (BitVec.ofNat 32 i)
  refine ⟨next, ?_, ?_, ?_, sound⟩
  · unfold CportPool.errorCreateDevice
    rw [runFrom_bind, ran]
    rfl
  · rw [held, taken.number, taken.held, Finset.erase_insert taken.absent]
  · cases taken.heap with
    | same sizes heaps => exact .same (size.trans sizes) (heap.trans heaps)
    | grown sizes heaps => exact .grown (size.trans sizes) (heap.trans heaps)

theorem Taken.errorCreateConnection (retval : Int) :
    Released s retval (runFrom (errorCreateConnection (BitVec.ofNat 32 i) retval)
      { middle with heap := .device i :: middle.heap }) := by
  have freed : runFrom (free (.device i)) { middle with heap := .device i :: middle.heap } = (.ok (), middle) := by
    unfold free
    rw [runFrom_bind, runFrom_get]
    dsimp only
    rw [if_pos mem_cons_self, runFrom_modify, erase_cons_head]
  unfold CportPool.errorCreateConnection
  rw [runFrom_bind, taken.number, freed]
  exact taken.errorCreateDevice retval

end

/-- A connection that succeeds holds the smallest id, and one that fails leaves the held ids and the heap alone. -/
theorem gbCportConnect_run (sound : Sound s) (env : Environment)
    (enough : env.protocol = true → s.MemoryFor cportCount env.tableMemory) :
    (∃ retval ≠ 0, Released s retval (runFrom (gbCportConnect cportCount env) s)) ∨
      ∃ i < cportCount, First (· ∉ s.held) i ∧ ∃ next, runFrom (gbCportConnect cportCount env) s = (.ok 0, next) ∧
        next.held = insert i s.held ∧ Sound next := by
  unfold gbCportConnect
  by_cases known : env.protocol = true
  · rw [if_pos known, runFrom_bind]
    rcases gbCportAllocate_run sound (enough known) with ⟨all, busy⟩ | ⟨i, less, first, middle, ran, held, heap, sane⟩
    · rw [busy]
      dsimp only
      rw [if_pos (by decide)]
      exact .inl ⟨- EBUSY, by decide, s, rfl, rfl, .same rfl rfl, sound⟩
    · have taken : Taken s middle i := ⟨first.here, held, heap, sane⟩
      have key : BitVec.ofInt 32 (i : Int) = BitVec.ofNat 32 i := BitVec.ofInt_natCast 32 i
      have created : runFrom (gbApCreateDevice env i) middle =
          if env.deviceMemory then (.ok true, { middle with heap := .device i :: middle.heap })
          else (.ok false, middle) := by
        unfold gbApCreateDevice
        split <;> rfl
      rw [ran]
      dsimp only
      rw [if_neg (by omega), Int.toNat_natCast, key, runFrom_bind, created]
      by_cases memory : env.deviceMemory = true
      · rw [if_pos memory]
        dsimp only
        rw [if_pos rfl]
        by_cases connection : env.createConnection ≠ 0
        · rw [if_pos connection]
          exact .inl ⟨env.createConnection, connection, taken.errorCreateConnection _⟩
        rw [if_neg connection]
        by_cases control : env.connectCport ≠ 0
        · rw [if_pos control]
          exact .inl ⟨env.connectCport, control, taken.errorCreateConnection _⟩
        rw [if_neg control]
        exact .inr ⟨i, less, first, { middle with heap := .device i :: middle.heap }, rfl, held, sane.direct,
          mem_cons_of_mem _ sane.table⟩
      · rw [if_neg memory]
        exact .inl ⟨- ENOMEM, by decide, taken.errorCreateDevice _⟩
  · rw [if_neg known]
    exact .inl ⟨- ENOTSUP, by decide, s, rfl, rfl, .same rfl rfl, sound⟩

end Code

/-- There is memory for a larger table, where a call needs one. -/
def Call.HasMemory (cportCount : ℕ) (s : System) : Call → Prop
  | .allocate memory => s.MemoryFor cportCount memory
  | .deallocate _ => True
  | .connect env => env.protocol = true → s.MemoryFor cportCount env.tableMemory

/-- What a call does with the pool: an id is given out only when it is the smallest one that is not held, an allocation
fails only when all ids are held, and a connection that fails leaves the held ids and the heap as they were, but for the
table of the pool. -/
def Call.Right (cportCount : ℕ) (s : System) (outcome : Except Ending Int × System) : Call → Prop
  | .allocate _ =>
    (∀ i < cportCount, i ∈ s.held) ∧ outcome = (.ok (- EBUSY), s) ∨
      ∃ i < cportCount, First (· ∉ s.held) i ∧ ∃ next, outcome = (.ok (i : Int), next) ∧
        next.held = insert i s.held
  | .deallocate cport => ∃ next, outcome = (.ok 0, next) ∧ next.held = s.held.erase cport.toNat
  | .connect _ => ∃ retval next, outcome = (.ok retval, next) ∧
      (retval ≠ 0 → next.held = s.held ∧ SameHeap s next) ∧
      (retval = 0 → ∃ i < cportCount, First (· ∉ s.held) i ∧ next.held = insert i s.held)

section Run
variable {s : System}

theorem sound_gbCportInit (blocks : List Block) : Sound (gbCportInit blocks) := by
  have fits : Hashtable.minSize * nodeSize < addressSpace := by decide
  have room : 0 < Hashtable.minSize / 2 := by decide
  exact ⟨⟨rfl, Nat.le_refl _, fits, nofun, fun _ _ => rfl, fun _ _ => rfl, nofun, rfl, room⟩, mem_cons_self⟩

/-- Each call of the pool returns, does what is right and keeps the pool. -/
theorem call_run (sound : Sound s) (cportCount : ℕ) (call : Call) (memory : call.HasMemory cportCount s) :
    call.Right cportCount s (runFrom (call.code cportCount) s) ∧
      ∃ next, step cportCount s call = some next ∧ Sound next := by
  have stepped {retval : Int} {next : System} (ran : runFrom (call.code cportCount) s = (.ok retval, next)) :
      step cportCount s call = some next := by
    unfold step
    change runFrom _ _ = _ at ran
    unfold runFrom at ran
    rw [ran]
  cases call with
  | allocate memories =>
    rcases gbCportAllocate_run sound memory with
      ⟨all, busy⟩ | ⟨i, less, first, next, ran, held, -, sane⟩
    · exact ⟨.inl ⟨all, busy⟩, s, stepped busy, sound⟩
    · exact ⟨.inr ⟨i, less, first, next, ran, held⟩, next, stepped ran, sane⟩
  | deallocate cport =>
    obtain ⟨next, deallocated, held, -, -, sane⟩ := gbCportDeallocate_run sound cport
    have ran : runFrom (Call.code cportCount (.deallocate cport)) s = (.ok 0, next) := by
      unfold Call.code
      rw [runFrom_bind, deallocated]
      rfl
    exact ⟨⟨next, ran, held⟩, next, stepped ran, sane⟩
  | connect env =>
    rcases gbCportConnect_run sound env memory with
      ⟨retval, error, next, ran, held, heap, sane⟩ | ⟨i, less, first, next, ran, held, sane⟩
    · refine ⟨⟨retval, next, ran, fun _ => ⟨held, heap⟩, fun zero => absurd zero error⟩, next, stepped ran, sane⟩
    · exact ⟨⟨0, next, ran, fun error => absurd rfl error, fun _ => ⟨i, less, first, held⟩⟩, next, stepped ran, sane⟩

end Run

/-- In every sequence of calls with memory for the tables that they need, each call returns, gives out the smallest id
that is not held, if there is one, and leaves no trace when it is a connection that fails, but a larger table. -/
theorem cport_pool (cportCount : ℕ) (blocks : List Block) (calls : List Call)
    (memory : Guarded (step cportCount) (fun s call => call.HasMemory cportCount s) (gbCportInit blocks) calls) :
    ∃ s, run (step cportCount) (gbCportInit blocks) calls = some s ∧
      ∀ call : Call, call.HasMemory cportCount s → call.Right cportCount s (runFrom (call.code cportCount) s) := by
  obtain ⟨s, ran, sound⟩ := run_total_of_guarded (step cportCount) (fun s call => call.HasMemory cportCount s)
    Sound
    (fun s call sound memory => (call_run sound cportCount call memory).2) (gbCportInit blocks) calls
    (sound_gbCportInit blocks) memory
  exact ⟨s, ran, fun call enough => (call_run sound cportCount call enough).1⟩

/-- The SVC refuses the connection. -/
def refused : Environment := ⟨true, fun _ => true, true, -5, 0⟩

/-- Two allocations, a connection that fails, and a deallocation -/
theorem cport_pool_calls :
    ∃ s, run (step 44) (gbCportInit []) [.allocate fun _ => true, .allocate fun _ => true, .connect refused,
        .deallocate 0] = some s ∧
      ∀ call : Call, call.HasMemory 44 s → call.Right 44 s (runFrom (call.code 44) s) := by
  refine cport_pool 44 [] _ ?_
  refine .mono (fun s call (room : s.held.card + 1 < s.cportMap.size / 2) => ?_) (by decide +kernel)
  have enough (memory : ℕ → Bool) : s.MemoryFor 44 memory := fun _ full => absurd room (Nat.not_lt.mpr full)
  cases call with
  | allocate memory => exact enough memory
  | deallocate cport => trivial
  | connect env => exact fun _ => enough env.tableMemory

/-- With three ids held, a connection that fails leaves a table of twice the size. -/
theorem cport_pool_grows :
    ∃ s next, run (step 44) (gbCportInit []) (List.replicate 3 (.allocate fun _ => true)) = some s ∧
      runFrom (gbCportConnect 44 refused) s = (.ok (-5), next) ∧ next.heap ≠ s.heap := by
  have heaps : (run (step 44) (gbCportInit []) (List.replicate 3 (.allocate fun _ => true))).map (fun s =>
      (s.heap, (runFrom (gbCportConnect 44 refused) s).1.toOption, (runFrom (gbCportConnect 44 refused) s).2.heap)) =
        some ([.table 8], some (-5), [.table 16]) := by
    decide +kernel
  obtain ⟨s, ran, same⟩ := Option.map_eq_some_iff.mp heaps
  obtain ⟨before, rest⟩ := Prod.mk.inj same
  obtain ⟨returned, after⟩ := Prod.mk.inj rest
  refine ⟨s, (runFrom (gbCportConnect 44 refused) s).2, ran, ?_, by rw [before, after]; decide⟩
  cases ended : runFrom (gbCportConnect 44 refused) s with
  | mk result next =>
  rw [ended] at returned
  cases result with
  | ok retval => rw [Option.some.inj returned]
  | error exit => cases returned

end Phabos.CportPool
