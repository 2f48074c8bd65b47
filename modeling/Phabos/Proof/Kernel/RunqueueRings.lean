import Phabos.Proof.Kernel.Scheduling
import Phabos.Proof.Mm.BucketLinks

namespace Phabos.Sched
open Library Function List

section Rotation
variable {Node : Type} [DecidableEq Node] {links : Links Node} {head first node : Node} {rest : List Node}

theorem ring_behind (ring : links.Ring first rest) (fresh : node ∉ first :: rest) :
    ∃ items, links.Ring (links.next first) items ∧ (links.next first :: items).Perm (first :: rest) ∧
      (Mm.listAdd links (links.next first) node).Ring node (rest ++ [first]) := by
  cases rest with
  | nil =>
    have next : links.next first = first := ring.next_head.mpr rfl
    rw [next]
    exact ⟨[], ring, .refl _, Links.Ring.turn.mpr (Mm.ring_listAdd ring fresh)⟩
  | cons second others =>
    have next : links.next first = second := (isChain_cons_cons.mp ring.2).1.1
    have same : (second :: (others ++ [first])).Perm (first :: second :: others) :=
      perm_append_singleton first (second :: others)
    have turned := Links.Ring.turn.mp ring
    have added := Mm.ring_listAdd turned fun there => fresh (same.mem_iff.mp there)
    rw [next]
    exact ⟨others ++ [first], turned, same, Links.Ring.turn.mpr added⟩

theorem ring_listDel_head (ring : links.Ring head (first :: rest)) : (Mm.listDel links head).Ring first rest := by
  have outside : head ∉ rest := fun there => (nodup_cons.mp ring.1).1 (mem_cons_of_mem _ there)
  have left := Mm.ring_listDel (Links.Ring.turn.mp ring) (mem_append_right _ mem_cons_self)
  rwa [erase_append_right _ outside, erase_cons_head, append_nil] at left

theorem ring_rotateAnticlockwise (ring : links.Ring head (first :: rest)) :
    (rotateAnticlockwise links head).Ring head (rest ++ [first]) ∧
      ∀ base others, links.Ring base others → (∀ one ∈ head :: first :: rest, one ∉ base :: others) →
        (rotateAnticlockwise links head).Ring base others := by
  have next : links.next head = first := (isChain_cons_cons.mp ring.2).1.1
  have fresh := (nodup_cons.mp ring.1).1
  obtain ⟨items, behind, same, added⟩ := ring_behind (ring_listDel_head ring) fresh
  unfold rotateAnticlockwise
  dsimp only
  rw [next]
  refine ⟨added, fun base others other apart => ?_⟩
  have kept := Mm.ring_listDel_of_apart (Links.Ring.turn.mp ring) (mem_append_right _ mem_cons_self) other
    (apart head mem_cons_self)
  have inside := same.mem_iff.mp mem_cons_self
  refine Mm.ring_listAdd_of_apart behind ?_ kept (apart head mem_cons_self) ?_
  · exact fun equal => fresh (equal ▸ inside)
  · exact apart _ (mem_cons_of_mem _ inside)

end Rotation

/-- The links are rings of the queues, no task is on two of them, and a task on none is linked to itself. -/
structure Scheduler.Rings (s : Scheduler) (links : Links Node) : Prop where
  rings : ∀ queue, links.Ring (.head queue) ((s.queue queue).map .list)
  once : ∀ queue other t, t ∈ s.queue queue → t ∈ s.queue other → queue = other
  alone : ∀ t, (∀ queue, t ∉ s.queue queue) → links.Ring (.list t) []

/-- The scheduler with its queues as links -/
def Scheduler.linked (s : Scheduler) (links : Links Node) : LinkedScheduler :=
  ⟨s.config, s.task, links, s.current, s.needResched, s.killTask, s.isLocked⟩

section Linked
variable {s : Scheduler} {links : Links Node} {t : ℕ}

theorem Node.list_injective : Function.Injective Node.list := fun _ _ same => Node.list.inj same

theorem list_mem_ring {queue : Queue} {items : List ℕ} : Node.list t ∈ .head queue :: items.map .list ↔ t ∈ items := by
  rw [mem_cons, mem_map_of_injective Node.list_injective, or_iff_right]
  exact fun same => by cases same

theorem head_mem_ring {queue other : Queue} {items : List ℕ} :
    Node.head other ∈ .head queue :: items.map .list ↔ other = queue := by
  rw [mem_cons, or_iff_left, Node.head.injEq]
  intro there
  obtain ⟨_, -, same⟩ := mem_map.mp there
  cases same

theorem Scheduler.Rings.listIsEmpty (rings : s.Rings links) (queue : Queue) :
    Mm.listIsEmpty links (.head queue) = true ↔ s.queue queue = [] := by
  have empty := (rings.rings queue).next_head
  rw [map_eq_nil_iff] at empty
  rw [← empty]
  exact decide_eq_true_iff.trans eq_comm

theorem Scheduler.Rings.firstOccupied (rings : s.Rings links) (queue : ℕ → Queue) (bound : ℕ) :
    firstOccupied links queue bound = highest (fun i => s.queue (queue i)) bound := by
  induction bound with
  | zero => rfl
  | succ bound ih =>
    unfold Sched.firstOccupied highest
    rw [ih]
    exact if_congr (rings.listIsEmpty (queue bound)) rfl rfl

theorem Scheduler.Rings.listFirstEntry (rings : s.Rings links) (queue : Queue) :
    listFirstEntry links queue = (s.queue queue).head? := by
  have ring := rings.rings queue
  unfold Sched.listFirstEntry
  cases items : s.queue queue with
  | nil =>
    rw [items] at ring
    rw [ring.next_head.mpr rfl]
    rfl
  | cons first rest =>
    rw [items] at ring
    rw [show links.next (.head queue) = .list first from (isChain_cons_cons.mp ring.2).1.1]
    rfl

theorem Scheduler.Rings.apart (rings : s.Rings links) {queue other : Queue} (differs : queue ≠ other) (node : Node)
    (there : node ∈ .head queue :: (s.queue queue).map .list) : node ∉ .head other :: (s.queue other).map .list := by
  cases node with
  | head base => exact fun here => differs ((head_mem_ring.mp there).symm.trans (head_mem_ring.mp here))
  | list t => exact fun here => differs (rings.once _ _ t (list_mem_ring.mp there) (list_mem_ring.mp here))

theorem list_apart {items : List ℕ} {queue : Queue} (absent : t ∉ items) (node : Node)
    (there : node ∈ .head queue :: items.map .list) : node ∉ [Node.list t] := by
  rintro here
  rw [mem_singleton.mp here] at there
  exact absent (list_mem_ring.mp there)

theorem Scheduler.Rings.rotate (rings : s.Rings links) {queue : Queue} (some : s.queue queue ≠ []) :
    { s with queue := update s.queue queue (listRotateAnticlockwise (s.queue queue)) }.Rings
      (rotateAnticlockwise links (.head queue)) := by
  have member (other : Queue) (u : ℕ) :
      u ∈ update s.queue queue (listRotateAnticlockwise (s.queue queue)) other ↔ u ∈ s.queue other := by
    by_cases same : other = queue
    · rw [same, update_self]
      exact (listRotateAnticlockwise_perm _).mem_iff
    · rw [update_of_ne same]
  have ring := rings.rings queue
  cases items : s.queue queue with
  | nil => exact absurd items some
  | cons first rest =>
    rw [items] at ring
    obtain ⟨rotated, kept⟩ := ring_rotateAnticlockwise ring
    refine ⟨fun other => ?_, fun other third u there here => ?_, fun u absent => ?_⟩
    · dsimp only
      by_cases same : other = queue
      · rw [same, update_self, listRotateAnticlockwise, map_append]
        exact rotated
      · rw [update_of_ne same]
        have apart := rings.apart (Ne.symm same)
        rw [items] at apart
        exact kept _ _ (rings.rings other) apart
    · rw [← items] at there here
      exact rings.once other third u ((member other u).mp there) ((member third u).mp here)
    · rw [← items] at absent
      have outside (other : Queue) : u ∉ s.queue other := fun there => absent other ((member other u).mpr there)
      exact kept _ _ (rings.alone u outside) fun node => list_apart (items ▸ outside queue) node

theorem joined_listDel_alone {Node : Type} [DecidableEq Node] {links : Links Node} {node one other : Node}
    (alone : links.Ring node []) (old : links.Joined one other) : (Mm.listDel links node).Joined one other := by
  obtain ⟨next, prev⟩ := isChain_pair.mp alone.2
  obtain ⟨nextOld, prevOld⟩ := old
  constructor
  · rw [Mm.next_listDel, next, prev]
    split
    · rename_i same
      rw [← nextOld, same, next]
    · exact nextOld
  · rw [Mm.prev_listDel, next, prev]
    split
    · rename_i same
      rw [← prevOld, same, prev]
    · exact prevOld

theorem Scheduler.Rings.listDel (rings : s.Rings links) (t : ℕ) :
    (s.listDel t).Rings (Mm.listDel links (.list t)) := by
  have once (queue other : Queue) (u : ℕ) (there : u ∈ (s.queue queue).erase t) (here : u ∈ (s.queue other).erase t) :
      queue = other := rings.once queue other u (mem_of_mem_erase there) (mem_of_mem_erase here)
  by_cases listed : ∃ queue, t ∈ s.queue queue
  · obtain ⟨queue, there⟩ := listed
    have inside : Node.list t ∈ (s.queue queue).map .list := mem_map_of_mem there
    have left := Mm.ring_listDel (rings.rings queue) inside
    have kept {base : Node} {others : List Node} (other : links.Ring base others) (outside : Node.list t ∉ base :: others) :=
      Mm.ring_listDel_of_apart (rings.rings queue) inside other outside
    refine ⟨fun other => ?_, once, fun u absent => ?_⟩
    · change (Mm.listDel links (.list t)).Ring (.head other) (((s.queue other).erase t).map .list)
      rw [map_erase Node.list_injective]
      by_cases same : other = queue
      · rw [same]
        exact left
      · have outside : t ∉ s.queue other := fun here => same (rings.once _ _ t here there)
        rw [← map_erase Node.list_injective, erase_of_not_mem outside]
        exact kept (rings.rings other) fun here => outside (list_mem_ring.mp here)
    · by_cases same : u = t
      · rw [same]
        refine ⟨nodup_singleton _, isChain_pair.mpr ⟨?_, ?_⟩⟩
        · rw [Mm.next_listDel, if_pos rfl]
        · rw [Mm.prev_listDel, if_pos rfl]
      · refine kept (rings.alone u fun other here => absent other ((mem_erase_of_ne same).mpr here)) fun here => ?_
        exact same (Node.list_injective (mem_singleton.mp here)).symm
  · have outside (queue : Queue) : t ∉ s.queue queue := fun there => listed ⟨queue, there⟩
    have alone := rings.alone t outside
    have whole (queue : Queue) : (s.queue queue).erase t = s.queue queue := erase_of_not_mem (outside queue)
    refine ⟨fun queue => ?_, once, fun u absent => ?_⟩
    · change (Mm.listDel links (.list t)).Ring (.head queue) (((s.queue queue).erase t).map .list)
      rw [whole]
      exact (rings.rings queue).keep fun _ _ _ _ => joined_listDel_alone alone
    · refine (rings.alone u fun queue => ?_).keep fun _ _ _ _ => joined_listDel_alone alone
      rw [← whole]
      exact absent queue

theorem Scheduler.Rings.listAdd (rings : s.Rings links) (queue : Queue) (fresh : ∀ other, t ∉ s.queue other) :
    (s.listAdd queue t).Rings (Mm.listAdd links (.head queue) (.list t)) := by
  have different : Node.list t ≠ .head queue := fun same => by cases same
  have ring := rings.rings queue
  have member (other : Queue) (u : ℕ) : u ∈ (s.listAdd queue t).queue other ↔ u ∈ s.queue other ∨ u = t ∧ other = queue := by
    change u ∈ update s.queue queue (s.queue queue ++ [t]) other ↔ _
    by_cases same : other = queue
    · rw [same, update_self, mem_append, mem_singleton, and_iff_left rfl]
    · rw [update_of_ne same, or_iff_left (fun here => same here.2)]
  refine ⟨fun other => ?_, fun other third u there here => ?_, fun u absent => ?_⟩
  · change (Mm.listAdd links (.head queue) (.list t)).Ring (.head other)
      ((update s.queue queue (s.queue queue ++ [t]) other).map .list)
    by_cases same : other = queue
    · rw [same, update_self, map_append]
      exact Mm.ring_listAdd ring fun here => fresh queue (list_mem_ring.mp here)
    · rw [update_of_ne same]
      exact Mm.ring_listAdd_of_apart ring different (rings.rings other) (fun here => fresh other (list_mem_ring.mp here))
        fun here => same (head_mem_ring.mp here).symm
  · rcases (member other u).mp there with one | ⟨new, equal⟩
    · rcases (member third u).mp here with two | ⟨new, -⟩
      · exact rings.once other third u one two
      · exact absurd (new ▸ one) (fresh other)
    · rcases (member third u).mp here with two | ⟨-, equal'⟩
      · exact absurd (new ▸ two) (fresh third)
      · exact equal.trans equal'.symm
  · have outside (other : Queue) : u ∉ s.queue other := fun there => absent other ((member other u).mpr (.inl there))
    have differs : t ≠ u := fun same => absent queue ((member queue u).mpr (.inr ⟨same.symm, rfl⟩))
    refine Mm.ring_listAdd_of_apart ring different (rings.alone u outside) ?_ ?_
    · exact fun here => differs (Node.list_injective (mem_singleton.mp here))
    · exact fun here => by cases mem_singleton.mp here

theorem Scheduler.Rings.schedFifoPickTask (rings : s.Rings links) :
    (s.linked links).schedFifoPickTask = schedFifoPickTask s := by
  have occupied := rings.firstOccupied .fifo s.config.numFifoPriorities
  unfold LinkedScheduler.schedFifoPickTask Sched.schedFifoPickTask Scheduler.linked
  dsimp only
  rw [occupied]
  exact Option.bind_congr fun i _ => rings.listFirstEntry (.fifo i)

theorem Scheduler.Rings.schedRrPickTask (rings : s.Rings links) : ∃ rotated,
    (s.linked links).schedRrPickTask = ((schedRrPickTask s).1.linked rotated, (schedRrPickTask s).2) ∧
      (schedRrPickTask s).1.Rings rotated := by
  have occupied := rings.firstOccupied .rr s.config.numRrPriorities
  unfold LinkedScheduler.schedRrPickTask Sched.schedRrPickTask Scheduler.linked
  dsimp only
  rw [occupied]
  cases found : highest (fun i => s.queue (.rr i)) s.config.numRrPriorities with
  | none => exact ⟨links, rfl, rings⟩
  | some i =>
    have rotated := rings.rotate (highest_eq_some_iff.mp found).2.1
    refine ⟨_, ?_, rotated⟩
    dsimp only
    rw [rotated.listFirstEntry]
    dsimp only
    rw [update_self]

theorem Scheduler.Rings.switchTo {rotated next : Scheduler} {turned : Links Node} (rings : rotated.Rings turned)
    (switched : switchTo s rotated t = some next) :
    ∃ links', (s.linked links).switchTo (rotated.linked turned) t = some (next.linked links') ∧ next.Rings links' := by
  have turned' : ({ rotated with current := t, needResched := false } : Scheduler).Rings turned :=
    { rings with }
  unfold Sched.switchTo at switched
  unfold LinkedScheduler.switchTo
  change ∃ links', (if s.killTask then _ else _) = _ ∧ _
  split at switched
  · rename_i kill
    rw [if_pos kill]
    have spared : ({ rotated with current := t, needResched := false, killTask := false } : Scheduler).Rings turned :=
      { rings with }
    unfold Sched.taskAnnihilate at switched
    unfold LinkedScheduler.taskAnnihilate
    change ∃ links', (if s.current = idleTask then _ else if t = s.current then _ else _) = _ ∧ _
    split at switched
    · rename_i idles
      rw [if_pos idles]
      obtain rfl := Option.some.inj switched
      exact ⟨turned, rfl, spared⟩
    · rename_i other
      rw [if_neg other]
      dsimp only at switched
      split at switched
      · cases switched
      · rename_i differs
        rw [if_neg differs]
        obtain rfl := Option.some.inj switched
        exact ⟨_, rfl, spared.listDel s.current⟩
  · rename_i spared
    rw [if_neg spared]
    obtain rfl := Option.some.inj switched
    exact ⟨turned, rfl, turned'⟩

theorem linked_prefer (s : Scheduler) (links : Links Node) (fifo rr : Option ℕ) :
    (s.linked links).prefer fifo rr = prefer s fifo rr := by
  cases fifo with
  | none => rfl
  | some t => cases rr <;> rfl

theorem Scheduler.Rings.schedule {next : Scheduler} (rings : s.Rings links) (scheduled : schedule s = some next) :
    ∃ links', (s.linked links).schedule = some (next.linked links') ∧ next.Rings links' := by
  obtain ⟨turned, picked, rotated⟩ := rings.schedRrPickTask
  unfold Sched.schedule at scheduled
  unfold LinkedScheduler.schedule
  rw [picked, rings.schedFifoPickTask]
  dsimp only at scheduled ⊢
  rw [linked_prefer]
  change ∃ links', (if s.isLocked ≠ 0 then _ else _) = _ ∧ _
  split at scheduled
  · rename_i locked
    obtain rfl := Option.some.inj scheduled
    rw [if_pos locked]
    exact ⟨links, rfl, rings⟩
  · rename_i unlocked
    rw [if_neg unlocked]
    cases chosen : prefer s (Sched.schedFifoPickTask s) (Sched.schedRrPickTask s).2 with
    | none =>
      rw [chosen] at scheduled
      dsimp only at scheduled ⊢
      change ∃ links', (if (s.task idleTask).running then _ else _) = _ ∧ _
      split at scheduled
      · rename_i running
        rw [if_pos running]
        exact rotated.switchTo scheduled
      · cases scheduled
    | some t =>
      rw [chosen] at scheduled
      exact rotated.switchTo scheduled

end Linked

end Phabos.Sched
