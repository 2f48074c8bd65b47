import Mathlib.Algebra.Ring.Nat
import Mathlib.Data.List.Count
import Mathlib.Data.List.Range
import Phabos.Construction.Ara.RingBuf
import Phabos.Library.LinkedRing
import Phabos.Library.Run

namespace Phabos.RingBuffer
open Library Function List Option

/-- An entry of the heap points to another one. -/
def Heap.Points (heap : Heap) (rb : ℕ) (next : Option ℕ) : Prop :=
  ∃ chunk, heap.chunks rb = some chunk ∧ chunk.rb.next = next

/-- The number of bytes in front of the data, in the data and behind it -/
def Sizes.total (sizes : Sizes) : ℕ := sizes.headroom.toNat + sizes.dataLen.toNat + sizes.tailroom.toNat

/-- The areas of an entry, the entry itself and the header of `kmalloc` have a size of 32 bits. -/
def Sizes.Fits (sizes : Sizes) : Prop := sizeofRingBuf.toNat + sizes.total + Mm.bufferSize < 2 ^ 32

instance (sizes : Sizes) : Decidable sizes.Fits := inferInstanceAs (Decidable (_ < _))

/-- The size that `ring_buf_alloc` asks `zalloc` for -/
def Sizes.asked (sizes : Sizes) : BitVec 32 := sizeofRingBuf + sizes.bufLen

/-- An entry is the producer's and empty, and its three areas lie in its memory behind the entry itself. -/
structure Chunk.Ready (sizes : Sizes) (chunk : Chunk) : Prop where
  owner : chunk.rb.owner = .producer
  empty : chunk.rb.head = chunk.rb.tail
  inside : sizeofRingBuf.toNat ≤ chunk.size.toNat ∧ (0 < sizes.total → ∃ buf,
    chunk.rb.headroom = some buf ∧ chunk.rb.data = some (buf + sizes.headroom.toNat) ∧
      chunk.rb.tailroom = some (buf + sizes.headroom.toNat + sizes.dataLen.toNat) ∧
      sizeofRingBuf.toNat ≤ buf ∧ buf + sizes.total ≤ chunk.size.toNat)

/-- A ring of new entries has been allocated, and nothing else has changed. -/
structure Allocated (sizes : Sizes) (heap after : Heap) (ring : List ℕ) : Prop where
  cycle : Cycle after.Points ring
  length : ring.length = sizes.entries.toNat
  entries : ∀ rb ∈ ring, heap.chunks rb = none ∧ ∃ chunk, after.chunks rb = some chunk ∧ chunk.Ready sizes
  others : ∀ rb, rb ∉ ring → after.chunks rb = heap.chunks rb
  stray : after.stray = heap.stray

/-- All that has been allocated is freed once, after a callback where there is one and the entry has been accepted. -/
structure Undone (freeCallback : Bool) (heap after : Heap) : Prop where
  chunks : after.chunks = heap.chunks
  events : ∃ events, after.log = heap.log ++ events ∧ ∀ rb,
    events.count (.allocated rb) ≤ 1 ∧ events.count (.freed rb) = events.count (.allocated rb) ∧
      events.count (.freeCallback rb) = if freeCallback then events.count (.accepted rb) else 0
  stray : after.stray = heap.stray

/-- What happens to an entry when it is freed -/
def freeEvents (freeCallback : Bool) (rb : ℕ) : List Event :=
  if freeCallback then [.freeCallback rb, .freed rb] else [.freed rb]

/-- The entries are freed in this order, each after its callback. -/
structure Freed (freeCallback : Bool) (heap after : Heap) (order : List ℕ) : Prop where
  gone : ∀ rb ∈ order, after.chunks rb = none
  others : ∀ rb, rb ∉ order → after.chunks rb = heap.chunks rb
  log : after.log = heap.log ++ order.flatMap (freeEvents freeCallback)
  stray : after.stray = heap.stray

/-- A ring is allocated or nothing is, and a ring is freed from any of its entries. -/
structure AllOrNothing (sizes : Sizes) : Prop where
  ring : ∀ around heap first after, ringBufAllocRing sizes around heap = (some first, after) →
    ∃ rest, Allocated sizes heap after (first :: rest)
  nothing : ∀ around heap after, ringBufAllocRing sizes around heap = (none, after) →
    Undone around.freeCallback heap after
  free : ∀ freeCallback heap ring rb, Cycle heap.Points ring → rb ∈ ring → ∃ fuel after rest,
    ringBufFreeRing freeCallback fuel (some rb) heap = some after ∧ (rb :: rest).Perm ring ∧
      Freed freeCallback heap after (rb :: rest)

section Free
variable {heap after : Heap} {freeCallback : Bool} {rb : ℕ} {next : Option ℕ} {rest : List ℕ}

theorem ringBufGetNext_eq (points : heap.Points rb next) : heap.ringBufGetNext rb = next := by
  obtain ⟨chunk, found, rfl⟩ := points
  unfold Heap.ringBufGetNext
  rw [found, bind_some]

theorem freed_entry (points : heap.Points rb next) :
    Freed freeCallback heap (freeEntry freeCallback rb (heap.read rb)) [rb] := by
  obtain ⟨chunk, found, -⟩ := points
  have there : (heap.chunks rb).isNone = false := by rw [found]; rfl
  have chunks : (freeEntry freeCallback rb (heap.read rb)).chunks = update heap.chunks rb none := by
    cases freeCallback <;> rfl
  constructor
  · intro other same
    rw [chunks, mem_singleton.mp same, update_self]
  · intro other differs
    rw [chunks, update_of_ne fun same => differs (mem_singleton.mpr same)]
  · cases freeCallback with
    | false => rfl
    | true => exact append_assoc ..
  · cases freeCallback with
    | false => simp [freeEntry, Heap.read, Heap.ringBufFree, there]
    | true => simp [freeEntry, Heap.read, Heap.note, Heap.ringBufFree, there]

theorem Freed.cons {middle : Heap} (first : Freed freeCallback heap middle [rb])
    (later : Freed freeCallback middle after rest) : Freed freeCallback heap after (rb :: rest) := by
  constructor
  · intro other there
    by_cases behind : other ∈ rest
    · exact later.gone other behind
    · obtain rfl := (mem_cons.mp there).resolve_right behind
      rw [later.others other behind, first.gone other (mem_singleton_self other)]
  · intro other differs
    rw [later.others other (not_mem_of_not_mem_cons differs),
      first.others other fun same => differs (mem_singleton.mp same ▸ mem_cons_self)]
  · rw [later.log, first.log, flatMap_singleton, append_assoc, flatMap_cons]
  · exact later.stray.trans first.stray

theorem Freed.linked (freed : Freed freeCallback heap after [rb]) (fresh : rb ∉ rest)
    (linked : Linked heap.Points rest next) : Linked after.Points rest next := by
  refine linked.imp fun other there next points => ?_
  have kept : after.chunks other = heap.chunks other := by
    apply freed.others
    rw [mem_singleton]
    rintro rfl
    exact fresh there
  obtain ⟨chunk, found, same⟩ := points
  exact ⟨chunk, kept.trans found, same⟩

theorem freed_entries (entries : List ℕ) (distinct : entries.Nodup) (linked : Linked heap.Points entries none) :
    Freed freeCallback heap (freeEntries freeCallback entries.length entries.head? heap) entries := by
  induction entries generalizing heap with
  | nil => exact ⟨nofun, fun _ _ => rfl, (append_nil _).symm, rfl⟩
  | cons rb rest ih =>
    obtain ⟨fresh, distinct⟩ := nodup_cons.mp distinct
    obtain ⟨points, linked⟩ := linked
    have first := @freed_entry _ freeCallback _ _ points
    rw [or_none] at points
    rw [length_cons, List.head?_cons, freeEntries, ringBufGetNext_eq points]
    exact first.cons (ih distinct (first.linked fresh linked))

theorem freed_ring {first fuel : ℕ} (entries : List ℕ) (distinct : (rb :: entries).Nodup) (other : first ∉ entries)
    (linked : Linked heap.Points (rb :: entries) (some first)) (enough : entries.length < fuel) :
    ∃ after, freeRingFrom freeCallback first fuel (some rb) heap = some after ∧
      Freed freeCallback heap after (rb :: entries) := by
  obtain ⟨fuel, rfl⟩ := Nat.exists_eq_add_one_of_ne_zero (Nat.ne_of_gt (Nat.zero_lt_of_lt enough))
  induction entries generalizing rb heap fuel with
  | nil =>
    have freed := @freed_entry _ freeCallback _ _ linked.1
    have next : heap.ringBufGetNext rb = some first := ringBufGetNext_eq linked.1
    refine ⟨_, ?_, freed⟩
    simp only [freeRingFrom, next]
    rw [if_neg (not_not.mpr rfl)]
  | cons behind entries ih =>
    obtain ⟨fresh, distinct⟩ := nodup_cons.mp distinct
    obtain ⟨points, linked⟩ := linked
    have freed := @freed_entry _ freeCallback _ _ points
    have next : heap.ringBufGetNext rb = some behind := ringBufGetNext_eq points
    have differs : some behind ≠ some first := fun same => other (some.inj same ▸ mem_cons_self)
    obtain ⟨fuel, rfl⟩ := Nat.exists_eq_add_one_of_ne_zero (Nat.ne_of_gt (Nat.zero_lt_of_lt (Nat.lt_of_succ_lt_succ enough)))
    obtain ⟨after, ended, later⟩ := ih distinct (fun there => other (mem_cons_of_mem _ there))
      (freed.linked fresh linked) fuel (Nat.lt_of_succ_lt_succ enough)
    refine ⟨after, ?_, freed.cons later⟩
    rw [freeRingFrom]
    simp only [next]
    rw [if_pos differs]
    exact ended

end Free

section Build
variable {sizes : Sizes} {around : Surroundings} {before heap : Heap} {ring : List ℕ} {s : Build}

/-- What happens to an entry when it is allocated -/
def allocEvents (rb : ℕ) : List Event := [.allocated rb, .accepted rb]

/-- New entries are linked, and nothing else has changed. -/
structure Partial (sizes : Sizes) (before heap : Heap) (ring : List ℕ) : Prop where
  distinct : ring.Nodup
  fresh : ∀ rb ∈ ring, before.chunks rb = none
  linked : Linked heap.Points ring none
  others : ∀ rb, rb ∉ ring → heap.chunks rb = before.chunks rb
  stray : sizes.Fits → heap.stray = before.stray

/-- What a part of the ring is stored as -/
def Sizes.chunk (sizes : Sizes) (next : Option ℕ) : Chunk := ⟨kmallocRoom sizes.asked, { sizes.entry with next := next }⟩

/-- The first loop has built this part of the ring. -/
structure Built (sizes : Sizes) (before : Heap) (ring : List ℕ) (s : Build) : Prop where
  part : Partial sizes before s.heap ring
  numbers : ∀ rb ∈ ring, rb < s.heap.count
  later : before.count ≤ s.heap.count
  made : ∀ rb ∈ ring, ∃ next, s.heap.chunks rb = some (sizes.chunk next)
  first : s.firstRb = ring.head?
  last : s.rb = ring.getLast?
  prev : s.prevRb = s.rb
  log : s.heap.log = before.log ++ ring.flatMap allocEvents

/-- The first loop has failed behind this part of the ring. -/
structure Broken (sizes : Sizes) (before : Heap) (ring : List ℕ) (s : Build) : Prop where
  part : Partial sizes before s.heap ring
  first : s.firstRb = ring.head?
  log : ∃ extra, s.heap.log = before.log ++ ring.flatMap allocEvents ++ extra ∧
    (extra = [] ∨ ∃ rb, rb ∉ ring ∧ extra = [.allocated rb, .freed rb])

theorem linked_concat {points : ℕ → Option ℕ → Prop} {nodes : List ℕ} {node : ℕ} {last : Option ℕ} :
    Linked points (nodes ++ [node]) last ↔ Linked points nodes (some node) ∧ points node last := by
  rw [linked_append, linked_cons, and_iff_left linked_nil]
  rfl

/-- A size that fits is given as it was asked for. -/
theorem Sizes.Fits.room (fits : sizes.Fits) : kmallocRoom sizes.asked = sizes.asked ∧
    sizes.asked.toNat = sizeofRingBuf.toNat + sizes.total ∧ sizeofRingBuf ≤ sizes.asked := by
  have own : sizeofRingBuf.toNat = 32 := rfl
  have header : Mm.bufferSize = 16 := rfl
  unfold Sizes.Fits at fits
  have asked : sizes.asked.toNat = sizeofRingBuf.toNat + sizes.total := by
    unfold Sizes.asked Sizes.bufLen Sizes.total at *
    simp only [BitVec.toNat_add]
    omega
  refine ⟨if_pos (by omega), asked, BitVec.le_def.mpr ?_⟩
  rw [asked]
  exact Nat.le_add_right _ _

theorem entry_next (sizes : Sizes) : sizes.entry.next = none := by
  unfold Sizes.entry
  split_ifs <;> rfl

theorem ringBufAlloc_made (heap : Heap) (given : kmallocRefuses sizes.asked = false) :
    ∃ after, ringBufAlloc sizes false heap = (some heap.count, after) ∧
      after.chunks = update heap.chunks heap.count (some (sizes.chunk none)) ∧
      after.count = heap.count + 1 ∧ after.log = heap.log ++ [.allocated heap.count] ∧
      (sizes.Fits → after.stray = heap.stray) := by
  have made : heap.zalloc false sizes.asked = (some heap.count, (heap.zalloc false sizes.asked).2) := by
    unfold Heap.zalloc
    rw [given]
    rfl
  have same : (heap.zalloc false sizes.asked).2.chunks =
      update heap.chunks heap.count (some ⟨kmallocRoom sizes.asked, .zero⟩) := by
    unfold Heap.zalloc
    rw [given]
    rfl
  refine ⟨(heap.zalloc false sizes.asked).2.write heap.count fun _ => sizes.entry, ?_, ?_, ?_, ?_, fun fits => ?_⟩
  · unfold ringBufAlloc
    rw [show sizeofRingBuf + sizes.bufLen = sizes.asked from rfl, made]
  · unfold Heap.write Sizes.chunk
    simp [same, ← entry_next sizes]
  · unfold Heap.write Heap.zalloc
    rw [given]
    rfl
  · unfold Heap.write Heap.zalloc
    rw [given]
    rfl
  · obtain ⟨room, -, enough⟩ := fits.room
    change ((heap.zalloc false sizes.asked).2.stray ||
      !((heap.zalloc false sizes.asked).2.chunks heap.count).any fun chunk => decide (sizeofRingBuf ≤ chunk.size)) = _
    rw [same, update_self]
    simp [room, enough, Heap.zalloc, given]

theorem ringBufAlloc_fails (heap : Heap) {fails : Bool} (refused : (fails || kmallocRefuses sizes.asked) = true) :
    ringBufAlloc sizes fails heap = (none, heap) := by
  unfold ringBufAlloc Heap.zalloc
  rw [show sizeofRingBuf + sizes.bufLen = sizes.asked from rfl, if_pos refused]

/-- A link that is written to an entry stays in its chunk when the sizes fit. -/
theorem setNext_made {rb : ℕ} {next : Option ℕ} (found : heap.chunks rb = some (sizes.chunk next)) (other : Option ℕ) :
    (heap.setNext (some rb) other).chunks = update heap.chunks rb (some (sizes.chunk other)) ∧
      (sizes.Fits → (heap.setNext (some rb) other).stray = heap.stray) := by
  constructor
  · change update heap.chunks rb ((heap.chunks rb).map _) = _
    rw [found]
    rfl
  · intro fits
    obtain ⟨room, -, enough⟩ := fits.room
    have inside : sizeofRingBuf ≤ (sizes.chunk next).size := by
      rw [Sizes.chunk, room]
      exact enough
    change (heap.stray || !(heap.chunks rb).any _) = _
    rw [found, any_some, decide_eq_true inside, Bool.not_true, Bool.or_false]

theorem Built.link (built : Built sizes before ring s)
    (chunks : heap.chunks = update s.heap.chunks s.heap.count (some (sizes.chunk none)))
    (count : heap.count = s.heap.count + 1) (log : heap.log = s.heap.log ++ [.allocated s.heap.count])
    (stray : sizes.Fits → heap.stray = s.heap.stray) :
    Built sizes before (ring ++ [s.heap.count]) (s.link heap s.heap.count) := by
  have unused := before.fresh s.heap.count built.later
  have apart : s.heap.count ∉ ring := fun there => Nat.lt_irrefl _ (built.numbers _ there)
  have last : (ring ++ [s.heap.count]).getLast? = some s.heap.count := List.getLast?_concat
  have distinct : (ring ++ [s.heap.count]).Nodup :=
    nodup_append.mpr ⟨built.part.distinct, nodup_singleton _, fun one there other same => by
      rintro rfl
      exact apart (mem_singleton.mp same ▸ there)⟩
  have fresh : ∀ rb ∈ ring ++ [s.heap.count], before.chunks rb = none := by
    intro rb there
    rcases mem_append.mp there with there | same
    · exact built.part.fresh rb there
    · exact mem_singleton.mp same ▸ unused
  have events : heap.log ++ [.accepted s.heap.count] =
      before.log ++ (ring ++ [s.heap.count]).flatMap allocEvents := by
    rw [log, built.log, flatMap_append, flatMap_singleton]
    simp [allocEvents]
  have numbers : ∀ rb ∈ ring ++ [s.heap.count], rb < heap.count := by
    intro rb there
    rw [count]
    rcases mem_append.mp there with there | same
    · exact Nat.lt_succ_of_lt (built.numbers rb there)
    · exact mem_singleton.mp same ▸ Nat.lt_succ_self _
  have later : before.count ≤ heap.count := count ▸ Nat.le_succ_of_le built.later
  rcases eq_nil_or_concat' ring with rfl | ⟨init, prev, rfl⟩
  · have none_first : s.firstRb = none := built.first
    unfold Build.link
    rw [none_first]
    have here : heap.chunks s.heap.count = some (sizes.chunk none) := by
      rw [chunks, update_self]
    refine ⟨⟨distinct, fresh, ⟨⟨_, here, rfl⟩, trivial⟩, fun rb differs => ?_,
        fun fits => (stray fits).trans (built.part.stray fits)⟩,
      numbers, later, fun rb same => ?_, rfl, last.symm, rfl, events⟩
    · change heap.chunks rb = _
      rw [chunks, update_of_ne fun same => differs (mem_singleton.mpr same)]
      exact built.part.others rb not_mem_nil
    · obtain rfl := mem_singleton.mp same
      exact ⟨none, here⟩
  · have inside : prev ∈ init ++ [prev] := mem_append_right _ (mem_singleton_self prev)
    have differs : prev ≠ s.heap.count := Nat.ne_of_lt (built.numbers prev inside)
    obtain ⟨first, firstRb⟩ : ∃ first, s.firstRb = some first := by
      rw [built.first]
      cases init <;> exact ⟨_, rfl⟩
    have prevRb : s.prevRb = some prev := built.prev.trans (built.last.trans List.getLast?_concat)
    obtain ⟨next, madePrev⟩ := built.made prev inside
    let after := (heap.note (.accepted s.heap.count)).setNext (some prev) (some s.heap.count)
    have linkedState : s.link heap s.heap.count = ⟨after, some s.heap.count, some s.heap.count, some first⟩ := by
      unfold Build.link
      rw [firstRb, prevRb]
    have old : heap.chunks prev = some (sizes.chunk next) := by
      rw [chunks, update_of_ne differs, madePrev]
    obtain ⟨afterChunks, afterStray⟩ := @setNext_made _ (heap.note (.accepted s.heap.count)) _ _ old (some s.heap.count)
    have atPrev : after.chunks prev =
        some (sizes.chunk (some s.heap.count)) := by
      rw [afterChunks, update_self]
    have elsewhere (rb : ℕ) (other : rb ≠ prev) : after.chunks rb = heap.chunks rb := by
      rw [afterChunks, update_of_ne other]
      rfl
    have atNew : after.chunks s.heap.count = some (sizes.chunk none) := by
      rw [elsewhere _ differs.symm, chunks, update_self]
    have kept (rb : ℕ) (other : rb ≠ prev) (notNew : rb ≠ s.heap.count) : after.chunks rb = s.heap.chunks rb := by
      rw [elsewhere rb other, chunks, update_of_ne notNew]
    rw [linkedState]
    refine ⟨⟨distinct, fresh, ?_, fun rb outside => ?_, ?_⟩, numbers, later, fun rb there => ?_, ?_, last.symm, rfl,
      events⟩
    · have linked := built.part.linked
      rw [linked_concat] at linked ⊢
      rw [linked_concat]
      refine ⟨⟨linked.1.imp fun rb there next points => ?_, _, atPrev, rfl⟩, _, atNew, rfl⟩
      obtain ⟨chunk, found, same⟩ := points
      have notPrev : rb ≠ prev := by
        rintro rfl
        exact (nodup_append.mp built.part.distinct).2.2 rb there rb (mem_singleton_self rb) rfl
      have notNew : rb ≠ s.heap.count := Nat.ne_of_lt (built.numbers rb (mem_append_left _ there))
      exact ⟨chunk, (kept rb notPrev notNew).trans found, same⟩
    · have notPrev : rb ≠ prev := fun same => outside (mem_append_left _ (same ▸ inside))
      have notNew : rb ≠ s.heap.count := fun same => outside (mem_append_right _ (mem_singleton.mpr same))
      rw [kept rb notPrev notNew]
      exact built.part.others rb fun there => outside (mem_append_left _ there)
    · exact fun fits => (afterStray fits).trans ((stray fits).trans (built.part.stray fits))
    · rcases mem_append.mp there with there | same
      · by_cases isPrev : rb = prev
        · subst isPrev
          exact ⟨_, atPrev⟩
        · rw [kept rb isPrev (Nat.ne_of_lt (built.numbers rb there))]
          exact built.made rb there
      · obtain rfl := mem_singleton.mp same
        exact ⟨none, atNew⟩
    · change some first = _
      rw [← firstRb, built.first]
      cases init <;> rfl

theorem built_start (sizes : Sizes) (before : Heap) : Built sizes before [] ⟨before, none, none, none⟩ :=
  ⟨⟨nodup_nil, nofun, trivial, fun _ _ => rfl, fun _ => rfl⟩, nofun, Nat.le_refl _, nofun, rfl, rfl, rfl,
    (append_nil _).symm⟩

theorem allocEntries_cases (remaining i : ℕ) (s : Build) (built : Built sizes before ring s) (length : ring.length = i) :
    ∃ all : List ℕ, all.length = (allocEntries sizes around remaining i s).1 ∧
      (all.length = i + remaining ∧ Built sizes before all (allocEntries sizes around remaining i s).2 ∨
        all.length < i + remaining ∧ Broken sizes before all (allocEntries sizes around remaining i s).2) := by
  induction remaining generalizing i s ring with
  | zero => exact ⟨ring, length, .inl ⟨length, built⟩⟩
  | succ remaining ih =>
    unfold allocEntries
    cases fails : around.zallocFails i || kmallocRefuses sizes.asked with
    | true =>
      rw [ringBufAlloc_fails _ fails]
      exact ⟨ring, length, .inr ⟨by omega, { built.part with }, built.first, [], built.log.trans (append_nil _).symm, .inl rfl⟩⟩
    | false =>
      obtain ⟨allowed, given⟩ := Bool.or_eq_false_iff.mp fails
      obtain ⟨heap, made, chunks, count, log, stray⟩ := ringBufAlloc_made s.heap given
      rw [allowed, made]
      by_cases refuses : around.refuses i = true
      · simp only [if_pos refuses]
        have same : (heap.ringBufFree s.heap.count).chunks = s.heap.chunks := by
          change update heap.chunks s.heap.count none = _
          rw [chunks, update_idem, ← s.heap.fresh s.heap.count (Nat.le_refl _), update_eq_self]
        have apart : s.heap.count ∉ ring := fun there => Nat.lt_irrefl _ (built.numbers _ there)
        refine ⟨ring, length, .inr ⟨by omega, ⟨built.part.distinct, built.part.fresh, ?_, fun rb outside => ?_, ?_⟩,
          built.first, [.allocated s.heap.count, .freed s.heap.count], ?_, .inr ⟨_, apart, rfl⟩⟩⟩
        · exact built.part.linked.imp fun rb _ next ⟨chunk, found, points⟩ =>
            ⟨chunk, (congrFun same rb).trans found, points⟩
        · exact (congrFun same rb).trans (built.part.others rb outside)
        · intro fits
          change (heap.stray || (heap.chunks s.heap.count).isNone) = _
          rw [chunks, update_self, isNone_some, Bool.or_false, stray fits, built.part.stray fits]
        · change heap.log ++ _ = _
          rw [log, built.log, append_assoc]
          rfl
      · simp only [if_neg refuses]
        obtain ⟨all, same, cases⟩ := ih (i + 1) (s.link heap s.heap.count) (built.link chunks count log stray)
          (by rw [length_append, length_singleton, length])
        rw [Nat.add_assoc, Nat.add_comm 1] at cases
        exact ⟨all, same, cases⟩

theorem allocEntries_whole (remaining i : ℕ) (s : Build) (room : ∀ i, around.zallocFails i = false)
    (given : kmallocRefuses sizes.asked = false)
    (accepts : ∀ i, around.refuses i = false) : (allocEntries sizes around remaining i s).1 = i + remaining := by
  induction remaining generalizing i s with
  | zero => rfl
  | succ remaining ih =>
    obtain ⟨heap, made, -⟩ := ringBufAlloc_made s.heap given
    unfold allocEntries
    rw [room, made]
    simp only [accepts, Bool.false_eq_true, if_false]
    rw [ih]
    omega

theorem count_events {events : ℕ → List Event} {event : Event} {rb times : ℕ}
    (each : ∀ other, (events other).count event = if other = rb then times else 0) (entries : List ℕ) :
    (entries.flatMap events).count event = entries.count rb * times := by
  induction entries with
  | nil => exact (Nat.zero_mul _).symm
  | cons other entries ih =>
    rw [flatMap_cons, count_append, ih, each, count_cons]
    by_cases same : other = rb
    · rw [if_pos same, if_pos (beq_iff_eq.mpr same), Nat.add_mul, Nat.one_mul, Nat.add_comm]
    · rw [if_neg same, if_neg (mt beq_iff_eq.mp same), Nat.zero_add, Nat.add_zero]

/-- An allocation that breaks off is undone. -/
theorem Broken.undone (broken : Broken sizes before ring s) (fits : sizes.Fits) (freeCallback : Bool) :
    Undone freeCallback before (freeEntries freeCallback ring.length s.firstRb s.heap) := by
  rw [broken.first]
  have freed := @freed_entries _ freeCallback ring broken.part.distinct broken.part.linked
  obtain ⟨extra, log, last⟩ := broken.log
  constructor
  · funext rb
    by_cases there : rb ∈ ring
    · rw [freed.gone rb there, broken.part.fresh rb there]
    · rw [freed.others rb there, broken.part.others rb there]
  · refine ⟨ring.flatMap allocEvents ++ extra ++ ring.flatMap (freeEvents freeCallback), ?_, fun rb => ?_⟩
    · rw [freed.log, log, append_assoc, append_assoc, append_assoc]
    · have made (event : ℕ → Event) (times : ℕ)
          (each : ∀ other, (allocEvents other).count (event rb) = if other = rb then times else 0) :
          (ring.flatMap allocEvents).count (event rb) = ring.count rb * times := count_events each ring
      have gone (event : ℕ → Event) (times : ℕ)
          (each : ∀ other, (freeEvents freeCallback other).count (event rb) = if other = rb then times else 0) :
          (ring.flatMap (freeEvents freeCallback)).count (event rb) = ring.count rb * times := count_events each ring
      have once : ring.count rb ≤ 1 := nodup_iff_count_le_one.mp broken.part.distinct rb
      have extra_counts : extra.count (.accepted rb) = 0 ∧ extra.count (.freeCallback rb) = 0 ∧
          extra.count (.freed rb) = extra.count (.allocated rb) ∧ ring.count rb + extra.count (.allocated rb) ≤ 1 := by
        rcases last with rfl | ⟨other, apart, rfl⟩
        · exact ⟨rfl, rfl, rfl, once⟩
        · by_cases same : other = rb
          · subst same
            rw [count_eq_zero_of_not_mem apart]
            simp
          · simp [same, once]
      simp only [count_append]
      rw [made .allocated 1 (by simp [allocEvents, count_cons]), made .accepted 1 (by simp [allocEvents, count_cons]),
        made .freed 0 (by simp [allocEvents]), made .freeCallback 0 (by simp [allocEvents])]
      cases freeCallback with
      | false =>
        rw [gone .allocated 0 (by simp [freeEvents]), gone .freed 1 (by simp [freeEvents, count_cons]),
          gone .freeCallback 0 (by simp [freeEvents])]
        simp only [Bool.false_eq_true, if_false]
        omega
      | true =>
        rw [gone .allocated 0 (by simp [freeEvents]), gone .freed 1 (by simp [freeEvents, count_cons]),
          gone .freeCallback 1 (by simp [freeEvents, count_cons]), gone .accepted 0 (by simp [freeEvents])]
        simp only [if_true]
        omega
  · exact freed.stray.trans (broken.part.stray fits)

/-- The last link closes the ring. -/
theorem Built.close (built : Built sizes before ring s) (some_entry : ring ≠ []) :
    Cycle (s.heap.setNext s.rb s.firstRb).Points ring ∧
      (∀ rb ∈ ring, ∃ next, (s.heap.setNext s.rb s.firstRb).chunks rb =
        some (sizes.chunk next)) ∧
      (∀ rb, rb ∉ ring → (s.heap.setNext s.rb s.firstRb).chunks rb = before.chunks rb) ∧
      (sizes.Fits → (s.heap.setNext s.rb s.firstRb).stray = before.stray) := by
  obtain ⟨init, last, rfl⟩ := (eq_nil_or_concat' ring).resolve_left some_entry
  have inside : last ∈ init ++ [last] := mem_append_right _ (mem_singleton_self last)
  have rb : s.rb = some last := built.last.trans List.getLast?_concat
  obtain ⟨next, made⟩ := built.made last inside
  obtain ⟨chunks, stray⟩ := setNext_made made s.firstRb
  rw [rb]
  have kept (other : ℕ) (differs : other ≠ last) :
      (s.heap.setNext (some last) s.firstRb).chunks other = s.heap.chunks other := by
    rw [chunks, update_of_ne differs]
  have atLast : (s.heap.setNext (some last) s.firstRb).chunks last =
      some (sizes.chunk s.firstRb) := by
    rw [chunks, update_self]
  refine ⟨⟨built.part.distinct, ?_⟩, fun other there => ?_, fun other outside => ?_,
    fun fits => (stray fits).trans (built.part.stray fits)⟩
  · have linked := built.part.linked
    rw [linked_concat] at linked ⊢
    refine ⟨linked.1.imp fun other there next ⟨chunk, found, points⟩ => ⟨chunk, ?_, points⟩, _, atLast, built.first⟩
    rw [kept other, found]
    rintro rfl
    exact (nodup_append.mp built.part.distinct).2.2 other there other (mem_singleton_self other) rfl
  · by_cases same : other = last
    · subst same
      exact ⟨_, atLast⟩
    · rw [kept other same]
      exact built.made other there
  · rw [kept other fun same => outside (same ▸ inside)]
    exact built.part.others other outside

end Build

/-- An entry has its areas in its memory exactly when they fit with the entry and the header of `kmalloc`. -/
theorem entry_ready_iff (sizes : Sizes) (next : Option ℕ) : (sizes.chunk next).Ready sizes ↔ sizes.Fits := by
  have own : sizeofRingBuf.toNat = 32 := rfl
  have header : Mm.bufferSize = 16 := rfl
  constructor
  · intro ready
    obtain ⟨room, areas⟩ := ready.inside
    have given : kmallocRoom sizes.asked = sizes.asked ∧ sizes.asked.toNat + Mm.bufferSize < 2 ^ 32 := by
      by_cases wraps : sizes.asked.toNat + Mm.bufferSize < 2 ^ 32
      · exact ⟨if_pos wraps, wraps⟩
      · have empty : kmallocRoom sizes.asked = 0 := if_neg wraps
        rw [Sizes.chunk, empty] at room
        exact absurd room (Nat.not_le_of_lt (Nat.zero_lt_of_ne_zero nofun))
    rw [Sizes.chunk, given.1] at areas
    unfold Sizes.Fits
    by_cases empty : 0 < sizes.total
    · obtain ⟨buf, -, -, -, behind, fits⟩ := areas empty
      dsimp only at fits
      omega
    · omega
  · intro fits
    obtain ⟨room, asked, -⟩ := fits.room
    have bufLen : sizes.bufLen.toNat = sizes.total := by
      unfold Sizes.Fits Sizes.bufLen Sizes.total at *
      simp only [BitVec.toNat_add]
      omega
    have size : (sizes.chunk next).size.toNat = sizeofRingBuf.toNat + sizes.total := by
      rw [Sizes.chunk, room, asked]
    unfold Sizes.chunk Sizes.entry at size ⊢
    by_cases some : sizes.bufLen ≠ 0
    · rw [if_pos some]
      refine ⟨rfl, rfl, size ▸ Nat.le_add_right _ _, fun _ => ⟨32, rfl, rfl, rfl, Nat.le_refl _, size.ge⟩⟩
    · rw [if_neg some]
      refine ⟨rfl, rfl, size ▸ Nat.le_add_right _ _, fun positive => ?_⟩
      rw [← bufLen, not_not.mp some] at positive
      cases positive

section Ring
variable {sizes : Sizes} {around : Surroundings} {heap : Heap}

/-- An allocation gives a whole ring or breaks off. -/
theorem ringBufAllocRing_cases (some_entry : sizes.entries ≠ 0) :
    (∃ ring s, ring.length = sizes.entries.toNat ∧ Built sizes heap ring s ∧
      ringBufAllocRing sizes around heap = (ring.head?, s.heap.setNext s.rb s.firstRb)) ∨
    (∃ ring s, ring.length < sizes.entries.toNat ∧ Broken sizes heap ring s ∧
      (allocEntries sizes around sizes.entries.toNat 0 ⟨heap, none, none, none⟩).1 = ring.length ∧
      ringBufAllocRing sizes around heap = (none, freeEntries around.freeCallback ring.length s.firstRb s.heap)) := by
  obtain ⟨ring, length, ⟨whole, built⟩ | ⟨short, broken⟩⟩ :=
    @allocEntries_cases _ around _ _ sizes.entries.toNat 0 _ (built_start sizes heap) rfl
  · rw [Nat.zero_add] at whole
    refine .inl ⟨ring, _, whole, built, ?_⟩
    unfold ringBufAllocRing
    simp only [if_neg some_entry]
    rw [if_neg (by omega), built.first]
  · rw [Nat.zero_add] at short
    refine .inr ⟨ring, _, short, broken, length.symm, ?_⟩
    unfold ringBufAllocRing
    simp only [if_neg some_entry]
    rw [if_pos (by omega), length]

/-- Without entries, or with entries that `kmalloc` never has a block for, nothing happens. -/
theorem ringBufAllocRing_idle (idle : sizes.entries = 0 ∨ kmallocRefuses sizes.asked = true) :
    ringBufAllocRing sizes around heap = (none, heap) := by
  unfold ringBufAllocRing
  by_cases none_wanted : sizes.entries = 0
  · rw [if_pos none_wanted]
  · rw [if_neg none_wanted]
    have some_entry : sizes.entries.toNat ≠ 0 := fun zero => none_wanted (BitVec.eq_of_toNat_eq zero)
    obtain ⟨more, count⟩ := Nat.exists_eq_add_one_of_ne_zero some_entry
    have refused : (around.zallocFails 0 || kmallocRefuses sizes.asked) = true := by
      rw [idle.resolve_left none_wanted, Bool.or_true]
    rw [count, allocEntries, ringBufAlloc_fails heap refused]
    rfl

end Ring

/-- A ring is allocated or nothing is exactly when there are no entries, or `kmalloc` refuses the size that it is asked for,
or an entry and its areas fit with the header of `kmalloc`. -/
theorem ring_all_or_nothing_iff (sizes : Sizes) :
    AllOrNothing sizes ↔ (sizes.entries = 0 ∨ kmallocRefuses sizes.asked = true) ∨ sizes.Fits := by
  constructor
  · intro all
    by_cases idle : sizes.entries = 0 ∨ kmallocRefuses sizes.asked = true
    · exact .inl idle
    right
    obtain ⟨none_wanted, given⟩ := not_or.mp idle
    let heap : Heap := ⟨fun _ => none, 0, fun _ _ => rfl, [], false⟩
    let around : Surroundings := ⟨fun _ => false, none, false⟩
    have some_entry : sizes.entries.toNat ≠ 0 := fun zero => none_wanted (BitVec.eq_of_toNat_eq zero)
    rcases @ringBufAllocRing_cases _ around heap none_wanted with
      ⟨ring, s, length, built, result⟩ | ⟨ring, s, short, -, length, -⟩
    · cases ring with
      | nil => exact absurd length.symm some_entry
      | cons first rest =>
        obtain ⟨others, allocated⟩ := all.ring around heap first _ result
        obtain ⟨-, chunk, found, ready⟩ := allocated.entries first List.mem_cons_self
        obtain ⟨next, made⟩ := (built.close (List.cons_ne_nil first rest)).2.1 first List.mem_cons_self
        obtain rfl := some.inj (found.symm.trans made)
        exact (entry_ready_iff sizes next).mp ready
    · have whole := @allocEntries_whole sizes around sizes.entries.toNat 0
        ⟨heap, none, none, none⟩ (fun _ => rfl) (Bool.eq_false_iff.mpr given) fun _ => rfl
      omega
  · intro right
    constructor
    case ring =>
      intro around heap first after result
      by_cases idle : sizes.entries = 0 ∨ kmallocRefuses sizes.asked = true
      · cases (ringBufAllocRing_idle idle).symm.trans result
      have fits := right.resolve_left idle
      have none_wanted := (not_or.mp idle).1
      rcases @ringBufAllocRing_cases _ around heap none_wanted with
        ⟨ring, s, length, built, same⟩ | ⟨ring, s, short, -, -, same⟩
      · obtain ⟨head, rfl⟩ := Prod.mk.inj (same.symm.trans result)
        obtain ⟨rest, rfl⟩ : ∃ rest, ring = first :: rest := List.head?_eq_some_iff.mp head
        obtain ⟨cycle, made, others, stray⟩ := built.close (List.cons_ne_nil first rest)
        refine ⟨rest, cycle, length, fun rb there => ⟨built.part.fresh rb there, ?_⟩, others, stray fits⟩
        obtain ⟨next, found⟩ := made rb there
        exact ⟨_, found, (entry_ready_iff sizes next).mpr fits⟩
      · cases same.symm.trans result
    case nothing =>
      intro around heap after result
      by_cases idle : sizes.entries = 0 ∨ kmallocRefuses sizes.asked = true
      · obtain ⟨-, rfl⟩ := Prod.mk.inj ((ringBufAllocRing_idle idle).symm.trans result)
        exact ⟨rfl, ⟨[], (List.append_nil _).symm, fun rb => ⟨Nat.zero_le _, rfl, by split_ifs <;> rfl⟩⟩, rfl⟩
      have fits := right.resolve_left idle
      have none_wanted := (not_or.mp idle).1
      rcases @ringBufAllocRing_cases _ around heap none_wanted with
        ⟨ring, s, length, built, same⟩ | ⟨ring, s, short, broken, -, same⟩
      · obtain ⟨head, -⟩ := Prod.mk.inj (same.symm.trans result)
        have empty : ring = [] := List.head?_eq_none_iff.mp head
        rw [empty] at length
        exact absurd (BitVec.eq_of_toNat_eq length.symm) none_wanted
      · obtain ⟨-, rfl⟩ := Prod.mk.inj (same.symm.trans result)
        exact broken.undone fits around.freeCallback
    case free =>
      intro freeCallback heap ring rb cycle there
      obtain ⟨rest, turned, same⟩ := cycle.turn there
      obtain ⟨after, ended, freed⟩ := @freed_ring _ freeCallback _ _ _ rest turned.1
        (List.nodup_cons.mp turned.1).1 turned.2 (Nat.lt_succ_self _)
      exact ⟨rest.length + 1, after, rest, ended, same, freed⟩

/-- A headroom and a data area of two gigabytes each get an entry without any memory for them. -/
theorem ring_wraps :
    let sizes : Sizes := ⟨1, 0x80000000, 0x80000000, 0⟩
    let heap : Heap := ⟨fun _ => none, 0, fun _ _ => rfl, [], false⟩
    (ringBufAllocRing sizes ⟨fun _ => false, none, false⟩ heap).1 = some 0 ∧
      ((ringBufAllocRing sizes ⟨fun _ => false, none, false⟩ heap).2.chunks 0).map Chunk.size = some 32 ∧
      ¬AllOrNothing sizes := by
  refine ⟨by decide, by decide, fun all => ?_⟩
  rcases (ring_all_or_nothing_iff _).mp all with idle | fits
  · exact absurd idle (by decide)
  · exact absurd fits (by decide)

section Clients
variable {before after : Heap} {s next : Clients} {ring : ℕ → List ℕ} {client : ℕ} {nodes : List ℕ}

/-- A ring is asked for with sizes that fit. -/
def Request.Fits : Request → Prop
  | .allocRing _ sizes _ => sizes.Fits
  | .getNext _ | .freeRing _ _ => True

/-- Each client is in a ring of its own, and the heap has these rings and what it had before. -/
structure Holds (before : Heap) (s : Clients) (ring : ℕ → List ℕ) : Prop where
  cycle : ∀ client, Cycle s.heap.Points (ring client) ∧ (ring client).head? = s.held client
  apart : ∀ client other, client ≠ other → Disjoint (ring client) (ring other)
  fresh : ∀ client, ∀ rb ∈ ring client, before.chunks rb = none
  others : ∀ rb, (∀ client, rb ∉ ring client) → s.heap.chunks rb = before.chunks rb
  stray : s.heap.stray = before.stray

theorem Holds.live (holds : Holds before s ring) {rb : ℕ} (there : rb ∈ ring client) : s.heap.chunks rb ≠ none := by
  obtain ⟨first, last, shape⟩ := append_of_mem there
  have linked := (holds.cycle client).1.2
  rw [shape, linked_append, linked_cons] at linked
  obtain ⟨chunk, found, -⟩ := linked.2.1
  rw [found]
  exact some_ne_none chunk

/-- A client gets other entries for those that it had. -/
theorem Holds.put (holds : Holds before s ring) (cycle : Cycle after.Points nodes)
    (fresh : ∀ rb ∈ nodes, rb ∈ ring client ∨ s.heap.chunks rb = none)
    (gone : ∀ rb ∈ ring client, rb ∉ nodes → after.chunks rb = none)
    (others : ∀ rb, rb ∉ ring client → rb ∉ nodes → after.chunks rb = s.heap.chunks rb)
    (stray : after.stray = s.heap.stray) :
    Holds before ⟨after, update s.held client nodes.head?⟩ (update ring client nodes) := by
  have away {other rb : ℕ} (differs : other ≠ client) (there : rb ∈ ring other) : rb ∉ ring client ∧ rb ∉ nodes := by
    have apart : rb ∉ ring client := holds.apart other client differs there
    exact ⟨apart, fun new => holds.live there ((fresh rb new).resolve_left apart)⟩
  have outer {rb : ℕ} (unused : s.heap.chunks rb = none) : before.chunks rb = none :=
    (holds.others rb fun _ there => holds.live there unused) ▸ unused
  constructor
  case cycle =>
    intro other
    by_cases same : other = client
    · subst same
      simp [cycle]
    · obtain ⟨turned, head⟩ := holds.cycle other
      rw [update_of_ne same]
      refine ⟨⟨turned.1, turned.2.imp fun rb there _ ⟨chunk, found, points⟩ => ⟨chunk, ?_, points⟩⟩, by simp [same, head]⟩
      exact (others rb (away same there).1 (away same there).2).trans found
  case apart =>
    intro one other differs rb
    have apart := holds.apart one other differs
    simp only [update_apply]
    grind [List.Disjoint]
  case fresh =>
    intro other rb
    have old := holds.fresh other rb
    simp only [update_apply]
    grind [holds.fresh client rb]
  case others =>
    intro rb outside
    have old := holds.others rb
    simp only [update_apply] at outside
    grind [holds.fresh client rb]
  case stray => exact stray.trans holds.stray

/-- A ring is freed whoever has come to which entry of it. -/
theorem Holds.free (holds : Holds before s ring) (client : ℕ) (freeCallback : Bool) :
    ∃ after, ringBufFreeRing freeCallback (s.heap.count + 1) (s.held client) s.heap = some after ∧
      Freed freeCallback s.heap after (ring client) := by
  obtain ⟨cycle, head⟩ := holds.cycle client
  rw [← head]
  cases shape : ring client with
  | nil => exact ⟨s.heap, rfl, nofun, fun _ _ => rfl, (append_nil _).symm, rfl⟩
  | cons rb rest =>
    rw [shape] at cycle
    have inside : rb :: rest ⊆ range s.heap.count := by
      intro other there
      by_contra outside
      have held : other ∈ ring client := shape ▸ there
      exact holds.live held (s.heap.fresh other (Nat.le_of_not_lt (mt mem_range.mpr outside)))
    have few := (subperm_of_subset cycle.1 inside).length_le
    rw [length_range, length_cons] at few
    exact freed_ring rest cycle.1 (nodup_cons.mp cycle.1).1 cycle.2 (Nat.le_succ_of_le few)

/-- Each request that fits leaves every client in a ring of its own. -/
theorem Holds.step (holds : Holds before s ring) (request : Request) (fits : request.Fits)
    (stepped : step s request = some next) :
    ∃ ring, Holds before next ring := by
  cases request with
  | allocRing client sizes around =>
    simp only [RingBuffer.step, ite_none_right_eq_some] at stepped
    obtain ⟨idle, rfl⟩ := stepped.imp id some.inj
    have empty : ring client = [] := head?_eq_none_iff.mp ((holds.cycle client).2.trans idle)
    have nothing {after : Heap} (chunks : after.chunks = s.heap.chunks) (stray : after.stray = s.heap.stray) :
        Holds before ⟨after, update s.held client none⟩ (update ring client []) :=
      holds.put ⟨nodup_nil, trivial⟩ nofun (empty ▸ nofun) (fun rb _ _ => congrFun chunks rb) stray
    by_cases none_wanted : sizes.entries = 0
    · have same : ringBufAllocRing sizes around s.heap = (none, s.heap) := if_pos none_wanted
      rw [same]
      exact ⟨_, nothing rfl rfl⟩
    rcases @ringBufAllocRing_cases _ around s.heap none_wanted with
      ⟨nodes, made, length, built, same⟩ | ⟨nodes, made, -, broken, -, same⟩
    · have some_entry : nodes ≠ [] := by
        rintro rfl
        exact none_wanted (BitVec.eq_of_toNat_eq length.symm)
      obtain ⟨cycle, -, others, stray⟩ := built.close some_entry
      rw [same]
      exact ⟨_, holds.put cycle (fun rb there => .inr (built.part.fresh rb there)) (empty ▸ nofun)
        (fun rb _ outside => others rb outside) (stray fits)⟩
    · have undone := broken.undone fits around.freeCallback
      rw [same]
      exact ⟨_, nothing undone.chunks undone.stray⟩
  | getNext client =>
    obtain ⟨rb, held, rfl⟩ := map_eq_some_iff.mp stepped
    obtain ⟨cycle, head⟩ := holds.cycle client
    obtain ⟨rest, shape⟩ : ∃ rest, ring client = rb :: rest := head?_eq_some_iff.mp (head.trans held)
    have points : s.heap.Points rb (some (rest.head?.getD rb)) := by
      have first := cycle.2
      rw [shape] at first
      cases rest with
      | nil => exact first.1
      | cons behind rest => exact first.1
    have there : rest.head?.getD rb ∈ ring client := by
      rw [shape]
      cases rest with
      | nil => exact mem_singleton_self rb
      | cons behind rest => exact mem_cons_of_mem rb mem_cons_self
    obtain ⟨others, turned, same⟩ := cycle.turn there
    have quiet : (s.heap.read rb).stray = s.heap.stray := by
      obtain ⟨chunk, found, -⟩ := points
      rw [Heap.read, found, isNone_some, Bool.or_false]
    rw [ringBufGetNext_eq points]
    exact ⟨_, @Holds.put _ (s.heap.read rb) _ _ _ _ holds turned (fun rb there => .inl (same.mem_iff.mp there))
      (fun rb there outside => absurd (same.mem_iff.mpr there) outside) (fun _ _ _ => rfl) quiet⟩
  | freeRing client freeCallback =>
    obtain ⟨after, ended, rfl⟩ := map_eq_some_iff.mp stepped
    obtain ⟨_, same, freed⟩ := holds.free client freeCallback
    obtain rfl := some.inj (same.symm.trans ended)
    exact ⟨_, holds.put ⟨nodup_nil, trivial⟩ nofun (fun rb there _ => freed.gone rb there)
      (fun rb outside _ => freed.others rb outside) freed.stray⟩

/-- Rings of sizes that fit that are allocated, walked around and freed by any clients leave the heap as it was: each client
has a ring of its own, which is freed from any of its entries, and when no ring is left the heap has what it had before. -/
theorem rings_conserve_heap (before : Heap) (requests : List Request) (fits : ∀ request ∈ requests, request.Fits)
    (s : Clients) (ran : run step ⟨before, fun _ => none⟩ requests = some s) :
    (∃ ring, Holds before s ring) ∧ (∀ client freeCallback, (step s (.freeRing client freeCallback)).isSome) ∧
      ((∀ client, s.held client = none) → s.heap.chunks = before.chunks ∧ s.heap.stray = before.stray) := by
  have start : Holds before ⟨before, fun _ => none⟩ fun _ => [] :=
    ⟨fun _ => ⟨⟨nodup_nil, trivial⟩, rfl⟩, fun _ _ _ => nofun, fun _ => nofun, fun _ _ => rfl, rfl⟩
  obtain ⟨ring, holds⟩ := run_invariant_of_guarded (fun s => ∃ ring, Holds before s ring) ⟨_, start⟩
    (.of_forall fun request there _ => fits request there) ran @fun _ request _ ⟨_, holds⟩ fits stepped =>
    holds.step request fits stepped
  refine ⟨⟨ring, holds⟩, fun client freeCallback => ?_, fun idle => ⟨funext fun rb => ?_, holds.stray⟩⟩
  · obtain ⟨after, ended, -⟩ := holds.free client freeCallback
    rw [RingBuffer.step, ended]
    rfl
  · refine holds.others rb fun client there => ?_
    rw [head?_eq_none_iff.mp ((holds.cycle client).2.trans (idle client))] at there
    cases there

/-- A ring of two entries is freed from the second one. -/
theorem rings_conserve_heap_second : ∃ s,
    run step ⟨⟨fun _ => none, 0, fun _ _ => rfl, [], false⟩, fun _ => none⟩
      [.allocRing 0 ⟨2, 0, 4, 0⟩ ⟨fun _ => false, none, true⟩, .getNext 0, .freeRing 0 true] = some s ∧
      ∃ ring, Holds ⟨fun _ => none, 0, fun _ _ => rfl, [], false⟩ s ring := by
  have fits : ∀ request ∈ [Request.allocRing 0 ⟨2, 0, 4, 0⟩ ⟨fun _ => false, none, true⟩, .getNext 0, .freeRing 0 true],
      request.Fits := by
    simp [Request.Fits]
    decide
  refine (isSome_iff_exists.mp ?_).imp fun s ran => ⟨ran, (rings_conserve_heap _ _ fits s ran).1⟩
  rfl

end Clients

end Phabos.RingBuffer
