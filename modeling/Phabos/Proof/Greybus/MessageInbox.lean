import Phabos.Proof.Greybus.PendingQueue

namespace Phabos.Greybus
open Library Function List Option

/-- The operations that the worker refers to. -/
def Worker.nodes : Worker → List OpId
  | .sweepNext iter | .matchNext _ iter => iter.toList
  | .sweepTest iter niter | .matchTest _ iter niter => iter.toList ++ niter.toList
  | .sweepUnlink op niter | .sweepCallback op niter | .sweepUnref op niter => op :: niter.toList
  | .matchUnlink _ op | .matchAttach _ op | .matchCallback _ op | .matchUnref _ op => [op]
  | _ => []

/-- The received message that the worker processes. -/
def Worker.message : Worker → Option OpId
  | .matchFirst operation | .matchNext operation _ | .matchTest operation _ _ => some operation
  | .matchUnlink operation _ | .matchAttach operation _ | .matchCallback operation _ => some operation
  | .matchUnref operation _ | .destroy operation => some operation
  | _ => none

/-- The response for which the worker has not yet unlinked an operation. -/
def Worker.unmatched : Worker → Option OpId
  | .matchFirst operation | .matchNext operation _ | .matchTest operation _ _ => some operation
  | .matchUnlink operation _ => some operation
  | _ => none

def RxItem.message? : RxItem → Option OpId
  | .timedout => none
  | .message received _ => some received

/-- The received messages that are not yet destroyed by the worker. -/
def GbCport.inbox (s : GbCport) : List OpId :=
  s.worker.message.toList ++ s.rxFifo.filterMap RxItem.message?

/-- The received messages that have not yet taken an operation off `tx_fifo`. -/
def GbCport.unmatched (s : GbCport) : List OpId :=
  s.worker.unmatched.toList ++ s.rxFifo.filterMap RxItem.message?

/-- Messages are received once, and a response removes at most one operation, with its own id. -/
structure Inbox (s : GbCport) : Prop where
  nodes : ∀ op ∈ s.worker.nodes, (s.phase op).queued = true
  received : ∀ operation ∈ s.inbox, s.phase operation = .received
  nodup : s.inbox.Nodup
  found : ∀ operation op, s.worker = .matchUnlink operation op → s.id op = s.id operation
  matched : ∀ op operation, s.removed op = some (.response operation) →
    s.phase operation = .received ∧ s.id op = s.id operation
  unmatched : ∀ operation ∈ s.unmatched, ∀ op, s.removed op ≠ some (.response operation)
  once : ∀ op other operation, s.removed op = some (.response operation) →
    s.removed other = some (.response operation) → op = other

section Steps
variable {machine : Machine} {s t : GbCport} {action : Action}

theorem Inbox.init : Inbox gbInitCport where
  nodes := by simp [gbInitCport, Worker.nodes]
  received := by simp [gbInitCport, GbCport.inbox, Worker.message]
  nodup := by simp [gbInitCport, GbCport.inbox, Worker.message]
  found := by simp [gbInitCport]
  matched := by simp [gbInitCport]
  unmatched := by simp [gbInitCport]
  once := by simp [gbInitCport]

section
variable (inbox : Inbox s) (queue : Queue s)
include inbox queue

theorem Inbox.frame (queued : ∀ op, (s.phase op).queued = true → (t.phase op).queued = true ∧ t.id op = s.id op)
    (received : ∀ op, s.phase op = .received → t.phase op = .received ∧ t.id op = s.id op)
    (nodes : ∀ op ∈ t.worker.nodes, op ∈ s.worker.nodes ∨ op ∈ s.txFifo) (sub : t.inbox.Sublist s.inbox)
    (unmatched : t.unmatched ⊆ s.unmatched)
    (found : ∀ operation op, t.worker = .matchUnlink operation op → s.worker = .matchUnlink operation op ∨ operation ∈ s.inbox ∧ op ∈ s.worker.nodes ∧ s.id op = s.id operation)
    (removed : ∀ op operation, t.removed op = some (.response operation) → s.removed op = some (.response operation)) :
    Inbox t where
  nodes := by
    intro op node
    apply (queued op _).1
    rcases nodes op node with before | pending
    · exact inbox.nodes op before
    · exact ((queue.listed op).mp pending).1
  received := fun operation there => (received operation (inbox.received operation (sub.subset there))).1
  nodup := inbox.nodup.sublist sub
  found := by
    intro operation op pc
    have before : operation ∈ s.inbox ∧ op ∈ s.worker.nodes ∧ s.id op = s.id operation := by
      rcases found operation op pc with before | found
      · refine ⟨?_, ?_, inbox.found operation op before⟩
        · simp [GbCport.inbox, before, Worker.message]
        · simp [before, Worker.nodes]
      · exact found
    rw [(queued op (inbox.nodes op before.2.1)).2,
      (received operation (inbox.received operation before.1)).2]
    exact before.2.2
  matched := by
    intro op operation gone
    have before := removed op operation gone
    have matched := inbox.matched op operation before
    have kept := queued op (queue.removed op (by rw [before]; exact some_ne_none _))
    have message := received operation matched.1
    exact ⟨message.1, by rw [kept.2, message.2, matched.2]⟩
  unmatched := fun operation there op gone =>
    inbox.unmatched operation (unmatched there) op (removed op operation gone)
  once := fun op other operation gone too =>
    inbox.once op other operation (removed op operation gone) (removed other operation too)

theorem Inbox.rephase {op : OpId} {phase : Phase} (idle : (s.phase op).queued = false) (sent : s.phase op ≠ .received)
    (phases : t.phase = update s.phase op phase) (ids : ∀ other, other ≠ op → t.id other = s.id other)
    (worker : t.worker = s.worker) (fifo : t.rxFifo = s.rxFifo) (removed : t.removed = s.removed) : Inbox t := by
  apply inbox.frame queue
  · intro other queued
    have differs : other ≠ op := by
      rintro rfl
      rw [queued] at idle
      cases idle
    rw [phases, update_of_ne differs]
    exact ⟨queued, ids other differs⟩
  · intro other received
    have differs : other ≠ op := by
      rintro rfl
      exact sent received
    rw [phases, update_of_ne differs]
    exact ⟨received, ids other differs⟩
  · intro other node
    exact .inl (worker ▸ node)
  · rw [GbCport.inbox, GbCport.inbox, worker, fifo]
  · rw [GbCport.unmatched, GbCport.unmatched, worker, fifo]
    exact List.Subset.refl _
  · intro operation other pc
    exact .inl (worker ▸ pc)
  · rw [removed]
    exact fun _ _ gone => gone

theorem Inbox.advance (phases : t.phase = s.phase) (ids : t.id = s.id)
    (fifo : t.rxFifo.filterMap RxItem.message? = s.rxFifo.filterMap RxItem.message?)
    (nodes : ∀ op ∈ t.worker.nodes, op ∈ s.worker.nodes ∨ op ∈ s.txFifo)
    (message : t.worker.message.toList.Sublist s.worker.message.toList)
    (unmatched : t.worker.unmatched.toList ⊆ s.worker.unmatched.toList)
    (found : ∀ operation op, t.worker = .matchUnlink operation op → s.worker.message = some operation ∧ op ∈ s.worker.nodes ∧ s.id op = s.id operation)
    (removed : ∀ op operation, t.removed op = some (.response operation) → s.removed op = some (.response operation)) :
    Inbox t := by
  apply inbox.frame queue _ _ nodes _ _ _ removed
  · intro op queued
    rw [phases, ids]
    exact ⟨queued, rfl⟩
  · intro op received
    rw [phases, ids]
    exact ⟨received, rfl⟩
  · rw [GbCport.inbox, GbCport.inbox, fifo]
    exact message.append_right _
  · rw [GbCport.unmatched, GbCport.unmatched, fifo]
    intro operation there
    rcases mem_append.mp there with working | queued
    · exact mem_append_left _ (unmatched working)
    · exact mem_append_right _ queued
  · intro operation op pc
    obtain ⟨working, node, same⟩ := found operation op pc
    refine .inr ⟨?_, node, same⟩
    rw [GbCport.inbox, working]
    exact mem_append_left _ (mem_singleton_self _)

theorem Inbox.drop (phases : t.phase = s.phase) (ids : t.id = s.id)
    (fifo : t.rxFifo.filterMap RxItem.message? = s.rxFifo.filterMap RxItem.message?) (removed : t.removed = s.removed)
    (nodes : t.worker.nodes = []) (message : t.worker.message = none) : Inbox t := by
  have unmatched : t.worker.unmatched = none := by
    cases pc : t.worker <;> simp_all [Worker.message, Worker.unmatched]
  refine inbox.advance queue phases ids fifo ?_ ?_ ?_ ?_ ?_
  · intro op node
    rw [nodes] at node
    cases node
  · rw [message]
    exact nil_sublist _
  · rw [unmatched]
    exact nil_subset _
  · intro operation op pc
    rw [pc] at message
    cases message
  · rw [removed]
    exact fun _ _ gone => gone

end

theorem Walks.nodes {before after : Worker} (walks : Walks machine s before after) :
    ∀ op ∈ after.nodes, op ∈ before.nodes ∨ op ∈ s.txFifo := by
  intro op node
  cases walks with
  | sweepFirst => exact .inr (mem_of_mem_head? (mem_toList.mp node))
  | sweepNext iter | matchNext operation iter =>
    rcases mem_append.mp node with iter | niter
    · exact .inl iter
    · rcases Cursor.mem_or_eq_of_next (mem_toList.mp niter) with pending | same
      · exact .inr pending
      · exact .inl (mem_toList.mpr same)
  | sweepEnd niter => cases node
  | sweepExpired op niter expired => exact .inl node
  | sweepKept op niter kept => exact .inl (mem_append_right _ node)
  | matchFirst operation => exact .inr (mem_of_mem_head? (mem_toList.mp node))
  | matchEnd operation niter => cases node
  | matchSkipped operation op niter differs => exact .inl (mem_append_right _ node)
  | matchFound operation op niter same => exact .inl (mem_append_left _ node)

theorem Walks.message {before after : Worker} (walks : Walks machine s before after) :
    after.message = before.message ∧ after.unmatched.toList ⊆ before.unmatched.toList := by
  cases walks with
  | matchEnd operation niter => exact ⟨rfl, nil_subset _⟩
  | _ => exact ⟨rfl, List.Subset.refl _⟩

theorem Walks.found {before : Worker} {operation op : OpId}
    (walks : Walks machine s before (.matchUnlink operation op)) :
    before.message = some operation ∧ op ∈ before.nodes ∧ s.id op = s.id operation := by
  cases walks with
  | matchFound _ _ niter same =>
    exact ⟨rfl, mem_append_left _ (mem_singleton_self _), same.symm⟩

theorem Inbox.receive (inbox : Inbox s) (queue : Queue s) {op : OpId} (isResponse : Bool)
    (absent : s.phase op = .absent) (phases : t.phase = update s.phase op .received)
    (ids : ∀ other, other ≠ op → t.id other = s.id other) (worker : t.worker = s.worker)
    (fifo : t.rxFifo = s.rxFifo ++ [.message op isResponse]) (removed : t.removed = s.removed) :
    Inbox t := by
  have messages : t.inbox = s.inbox ++ [op] := by
    rw [GbCport.inbox, GbCport.inbox, worker, fifo, filterMap_append, append_assoc]
    rfl
  have waiting : t.unmatched = s.unmatched ++ [op] := by
    rw [GbCport.unmatched, GbCport.unmatched, worker, fifo, filterMap_append, append_assoc]
    rfl
  have fresh : op ∉ s.inbox := by
    intro there
    rw [inbox.received op there] at absent
    cases absent
  have kept : ∀ other, other ≠ op → t.phase other = s.phase other := by
    intro other differs
    rw [phases, update_of_ne differs]
  have queued : ∀ other, (s.phase other).queued = true → other ≠ op := by
    rintro other queued rfl
    rw [absent] at queued
    cases queued
  have message : ∀ other, s.phase other = .received → other ≠ op := by
    rintro other received rfl
    rw [absent] at received
    cases received
  constructor
  · intro other node
    rw [worker] at node
    have before := inbox.nodes other node
    rw [kept other (queued other before)]
    exact before
  · intro other there
    rw [messages] at there
    rw [phases]
    rcases mem_append.mp there with before | new
    · rw [update_of_ne (message other (inbox.received other before))]
      exact inbox.received other before
    · rw [mem_singleton.mp new, update_self]
  · rw [messages]
    exact inbox.nodup.append (nodup_singleton op) (disjoint_singleton.mpr fresh)
  · intro operation other pc
    rw [worker] at pc
    have node : other ∈ s.worker.nodes := by
      simp [pc, Worker.nodes]
    have there : operation ∈ s.inbox := by
      simp [GbCport.inbox, pc, Worker.message]
    rw [ids other (queued other (inbox.nodes other node)),
      ids operation (message operation (inbox.received operation there))]
    exact inbox.found operation other pc
  · intro other operation gone
    rw [removed] at gone
    have matched := inbox.matched other operation gone
    have listed : (s.phase other).queued = true :=
      queue.removed other (by rw [gone]; exact some_ne_none _)
    have differs := message operation matched.1
    rw [kept operation differs, ids other (queued other listed), ids operation differs]
    exact matched
  · intro operation there other gone
    rw [waiting] at there
    rw [removed] at gone
    rcases mem_append.mp there with before | new
    · exact inbox.unmatched operation before other gone
    · exact message operation (inbox.matched other operation gone).1 (mem_singleton.mp new)
  · rw [removed]
    exact inbox.once

theorem Inbox.matchUnlink (inbox : Inbox s) {operation op : OpId}
    (pc : s.worker = .matchUnlink operation op) (phases : t.phase = s.phase)
    (ids : t.id = s.id) (worker : t.worker = .matchAttach operation op) (fifo : t.rxFifo = s.rxFifo)
    (removed : t.removed = update s.removed op (some (.response operation))) : Inbox t := by
  have messages : t.inbox = s.inbox := by
    rw [GbCport.inbox, GbCport.inbox, worker, fifo, pc]
    rfl
  have waiting : s.unmatched = operation :: t.unmatched := by
    rw [GbCport.unmatched, GbCport.unmatched, worker, fifo, pc]
    rfl
  have there : operation ∈ s.inbox := by
    simp [GbCport.inbox, pc, Worker.message]
  have first : ∀ other, s.removed other ≠ some (.response operation) :=
    inbox.unmatched operation (waiting ▸ mem_cons_self)
  constructor
  · rw [worker, phases]
    intro other node
    apply inbox.nodes other
    rw [pc]
    exact node
  · rw [messages, phases]
    exact inbox.received
  · rw [messages]
    exact inbox.nodup
  · intro other node attached
    rw [worker] at attached
    cases attached
  · intro other message gone
    rw [removed, update_apply] at gone
    rw [phases, ids]
    split at gone
    · next same =>
        obtain rfl : operation = message := by simpa using gone
        rw [same]
        exact ⟨inbox.received operation there, inbox.found operation op pc⟩
    · exact inbox.matched other message gone
  · intro message later other gone
    rw [removed, update_apply] at gone
    split at gone
    · obtain rfl : operation = message := by simpa using gone
      have distinct : s.unmatched.Nodup := by
        have : s.unmatched = s.inbox := by
          rw [GbCport.unmatched, GbCport.inbox, pc]
          rfl
        rw [this]
        exact inbox.nodup
      rw [waiting] at distinct
      exact (nodup_cons.mp distinct).1 later
    · exact inbox.unmatched message (waiting ▸ mem_cons_of_mem _ later) other gone
  · intro one other message gone too
    rw [removed, update_apply] at gone too
    split at gone
    · next same =>
        obtain rfl : operation = message := by simpa using gone
        split at too
        · next also => rw [same, also]
        · exact absurd too (first other)
    · next differs =>
        split at too
        · obtain rfl : operation = message := by simpa using too
          exact absurd gone (first one)
        · exact inbox.once one other message gone too

theorem Inbox.requeue (inbox : Inbox s) (queue : Queue s) {op : OpId} {phase : Phase}
    (before : (s.phase op).queued = true) (after : phase.queued = true)
    (phases : t.phase = update s.phase op phase) (ids : t.id = s.id) (worker : t.worker = s.worker)
    (fifo : t.rxFifo = s.rxFifo)
    (removed : ∀ op operation, t.removed op = some (.response operation) →
      s.removed op = some (.response operation)) : Inbox t := by
  apply inbox.frame queue _ _ _ _ _ _ removed
  · intro other queued
    rw [phases, ids, update_apply]
    split
    · exact ⟨after, rfl⟩
    · exact ⟨queued, rfl⟩
  · intro other received
    have differs : other ≠ op := by
      rintro rfl
      rw [received] at before
      cases before
    rw [phases, ids, update_of_ne differs]
    exact ⟨received, rfl⟩
  · rw [worker]
    exact fun _ node => .inl node
  · rw [GbCport.inbox, GbCport.inbox, worker, fifo]
  · rw [GbCport.unmatched, GbCport.unmatched, worker, fifo]
    exact List.Subset.refl _
  · rw [worker]
    exact fun _ _ pc => .inl pc

theorem GbCport.removing_response {op other operation : OpId} {removal : Removal}
    (differs : removal ≠ .response operation) (gone : s.removing op removal other = some (.response operation)) :
    s.removed other = some (.response operation) := by
  unfold GbCport.removing at gone
  split at gone
  · rw [update_apply] at gone
    split at gone
    · exact absurd (some.inj gone) differs
    · exact gone
  · exact gone

/-- A move keeps each message at one place between the receiver and the worker. -/
theorem Inbox.moves (inbox : Inbox s) (queue : Queue s) (linked : Linked s action)
    (moves : Moves machine s action t) : Inbox t := by
  cases moves with
  | create op absent =>
    refine inbox.rephase queue (by rw [absent]; rfl) (by rw [absent]; decide) rfl ?_ rfl rfl rfl
    exact fun other differs => update_of_ne differs _ _
  | sendUnanswered op created _ | drawZero op created _ _ =>
    refine inbox.rephase queue (by rw [created]; rfl) (by rw [created]; decide) rfl ?_ rfl rfl rfl
    exact fun other differs => update_of_ne differs _ _
  | draw op drawing =>
    have unsent : s.phase op = .created ∨ s.phase op = .redraw := drawing.imp (fun first => first.1) id
    have idle : (s.phase op).queued = false ∧ s.phase op ≠ .received := by
      rcases unsent with created | redraw
      · rw [created]
        decide
      · rw [redraw]
        decide
    refine inbox.rephase queue idle.1 idle.2 rfl ?_ rfl rfl rfl
    exact fun other differs => update_of_ne differs _ _
  | otherDraw | destroy op may | tick ticks quiet =>
    obtain ⟨nodes, received, nodup, found, matched, unmatched, once⟩ := inbox
    exact ⟨nodes, received, nodup, found, matched, unmatched, once⟩
  | stamp op hasCallback drawn =>
    exact inbox.rephase queue (by rw [drawn]; rfl) (by rw [drawn]; decide) rfl (fun _ _ => rfl) rfl rfl rfl
  | enqueue op stamped =>
    exact inbox.rephase queue (by rw [stamped]; rfl) (by rw [stamped]; decide) rfl (fun _ _ => rfl) rfl
      rfl rfl
  | transport op sent sending =>
    refine inbox.requeue queue (by rw [sending]; rfl) ?_ rfl rfl rfl rfl (fun _ _ gone => gone)
    cases sent <;> rfl
  | cleanup op failed =>
    refine inbox.requeue queue (by rw [failed]; rfl) rfl rfl rfl rfl rfl ?_
    exact fun other operation gone => GbCport.removing_response (by simp) gone
  | receive op isResponse id absent =>
    exact inbox.receive queue isResponse absent rfl (fun other differs => update_of_ne differs _ _) rfl
      rfl rfl
  | fire ticks fires =>
    refine inbox.advance queue rfl rfl ?_ (fun _ node => .inl node) (List.Sublist.refl _)
      (List.Subset.refl _) ?_ (fun _ _ gone => gone)
    · change (if _ then _ else _ : List RxItem).filterMap RxItem.message? = _
      split
      · rfl
      · rw [filterMap_append]
        exact append_nil _
    · intro operation op pc
      change s.worker = _ at pc
      rw [pc]
      exact ⟨rfl, mem_singleton_self _, inbox.found operation op pc⟩
  | popTimedout rest idle first =>
    refine inbox.drop queue rfl rfl ?_ rfl rfl rfl
    rw [first]
    rfl
  | popMessage operation isResponse rest idle first =>
    refine inbox.frame queue (fun _ queued => ⟨queued, rfl⟩) (fun _ received => ⟨received, rfl⟩) ?_ ?_ ?_ ?_
      (fun _ _ gone => gone)
    · intro op node
      cases isResponse <;> cases node
    · have same : s.inbox = operation :: rest.filterMap RxItem.message? := by
        rw [GbCport.inbox, idle, first]
        rfl
      rw [same]
      cases isResponse <;> exact List.Sublist.refl _
    · have same : s.unmatched = operation :: rest.filterMap RxItem.message? := by
        rw [GbCport.unmatched, idle, first]
        rfl
      rw [same]
      cases isResponse with
      | true => exact List.Subset.refl _
      | false => exact subset_cons_self _ _
    · intro message op pc
      cases isResponse <;> cases pc
  | walk worker walks =>
    obtain ⟨message, unmatched⟩ := walks.message
    refine inbox.advance queue rfl rfl rfl walks.nodes ?_ unmatched ?_ (fun _ _ gone => gone)
    · change worker.message.toList.Sublist _
      rw [message]
    · rintro operation op rfl
      exact walks.found
  | sweepUnlink op niter pc =>
    refine inbox.advance queue rfl rfl rfl ?_ (nil_sublist _) (nil_subset _) ?_ ?_
    · rw [pc]
      exact fun _ node => .inl node
    · rintro operation op ⟨⟩
    · exact fun other operation gone => GbCport.removing_response (by simp) gone
  | sweepCallback op niter pc =>
    refine inbox.advance queue rfl rfl rfl ?_ (nil_sublist _) (nil_subset _) ?_
      (fun _ _ gone => gone)
    · rw [pc]
      exact fun _ node => .inl node
    · rintro operation op ⟨⟩
  | sweepUnref op niter pc =>
    refine inbox.advance queue rfl rfl rfl ?_ (nil_sublist _) (nil_subset _) ?_
      (fun _ _ gone => gone)
    · rw [pc]
      exact fun _ node => .inl (mem_cons_of_mem _ node)
    · rintro operation op ⟨⟩
  | sweepUpdate pc => exact inbox.drop queue rfl rfl rfl rfl rfl rfl
  | matchUnlink operation op pc =>
    have pending : op ∈ s.txFifo := linked op (by rw [pc]; rfl)
    exact inbox.matchUnlink pc rfl rfl rfl rfl (if_pos pending)
  | matchAttach operation op pc | matchCallback operation op pc =>
    refine inbox.advance queue rfl rfl rfl ?_ ?_ (nil_subset _) ?_ (fun _ _ gone => gone)
    · rw [pc]
      exact fun _ node => .inl node
    · rw [pc]
      exact List.Sublist.refl _
    · rintro operation op ⟨⟩
  | matchUnref operation op pc =>
    refine inbox.advance queue rfl rfl rfl ?_ ?_ (nil_subset _) ?_ (fun _ _ gone => gone)
    · rintro other ⟨⟩
    · rw [pc]
      exact List.Sublist.refl _
    · rintro operation op ⟨⟩
  | finish operation pc => exact inbox.drop queue rfl rfl rfl rfl rfl rfl

end Steps

end Phabos.Greybus
