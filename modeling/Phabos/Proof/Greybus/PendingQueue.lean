import Phabos.Library.Run
import Phabos.Proof.Greybus.CportMoves

namespace Phabos.Greybus
open Library Function

/-- An operation was put on `tx_fifo` before. -/
def Phase.queued : Phase → Bool
  | .sending | .failed | .returned => true
  | _ => false

/-- A response or the timeout took an operation off, not a failed send. -/
def Removal.answers : Option Removal → Bool
  | some .sweep | some (.response _) => true
  | _ => false

/-- The operation that the worker unlinked and has not released. -/
def Worker.owned : Worker → Option OpId
  | .sweepCallback op _ | .sweepUnref op _ => some op
  | .matchAttach _ op | .matchCallback _ op | .matchUnref _ op => some op
  | _ => none

/-- Why the worker unlinked the operation it owns. -/
def Worker.cause : Worker → Option Removal
  | .sweepCallback _ _ | .sweepUnref _ _ => some .sweep
  | .matchAttach operation _ | .matchCallback operation _ | .matchUnref operation _ =>
    some (.response operation)
  | _ => none

/-- The operation whose callback the worker has still to run. -/
def Worker.calling : Worker → Option OpId
  | .sweepCallback op _ => some op
  | .matchAttach _ op | .matchCallback _ op => some op
  | _ => none

/-- The node that the worker is about to follow or to unlink. -/
def Worker.follows : Worker → Option OpId
  | .sweepNext iter | .matchNext _ iter => iter
  | .sweepUnlink op _ | .matchUnlink _ op => some op
  | _ => none

/-- No failed send takes an operation off `tx_fifo` that is gone from it, and the worker follows and
unlinks only nodes that are still on it. -/
def Linked (s : GbCport) : Action → Prop
  | .cleanup op => op ∈ s.txFifo
  | .work => ∀ op ∈ s.worker.follows, op ∈ s.txFifo
  | _ => True

instance (s : GbCport) (action : Action) : Decidable (Linked s action) :=
  match action with
  | .cleanup op => inferInstanceAs (Decidable (op ∈ s.txFifo))
  | .work => inferInstanceAs (Decidable (∀ op ∈ s.worker.follows, op ∈ s.txFifo))
  | .create _ | .sendUnanswered _ | .draw _ | .otherDraw | .stamp _ _ | .enqueue _ | .transport _ _
  | .destroy _ | .receive _ _ _ | .tick _ => .isTrue trivial

/-- The pending operations and the callbacks that ran follow from why operations were removed. -/
structure Queue (s : GbCport) : Prop where
  nodup : s.txFifo.Nodup
  listed : ∀ op, op ∈ s.txFifo ↔ (s.phase op).queued = true ∧ s.removed op = none
  removed : ∀ op, s.removed op ≠ none → (s.phase op).queued = true
  owned : ∀ op, s.worker.owned = some op → s.removed op = s.worker.cause
  called : ∀ op, s.callbacks op =
    if Removal.answers (s.removed op) ∧ s.worker.calling ≠ some op ∧ s.hasCallback op = true then 1 else 0

section Steps
variable {machine : Machine} {s t : GbCport} {action : Action}

theorem Queue.init : Queue gbInitCport where
  nodup := List.nodup_nil
  listed := by simp [gbInitCport, Phase.queued]
  removed := by simp [gbInitCport]
  owned := by simp [gbInitCport, Worker.owned]
  called := by simp [gbInitCport, Removal.answers]

theorem Walks.owned {before after : Worker} (walks : Walks machine s before after) :
    before.owned = none ∧ after.owned = none ∧ before.calling = none ∧ after.calling = none := by
  cases walks <;> exact ⟨rfl, rfl, rfl, rfl⟩

variable {op : OpId}

theorem Worker.cause_of_owned {worker : Worker} (owned : worker.owned = some op) :
    worker.cause ≠ none := by
  cases worker <;> simp_all [Worker.owned, Worker.cause]

theorem Worker.owned_of_calling {worker : Worker} (calling : worker.calling = some op) :
    worker.owned = some op := by
  cases worker <;> simp_all [Worker.owned, Worker.calling]

section
variable (queue : Queue s)
include queue

theorem Queue.not_owned (pending : op ∈ s.txFifo) : s.worker.owned ≠ some op := by
  intro owned
  apply Worker.cause_of_owned owned
  rw [← queue.owned op owned]
  exact ((queue.listed op).mp pending).2

theorem GbCport.removing_of_some {gone other : OpId} {cause : Removal} (removal : Removal)
    (before : s.removed other = some cause) : s.removing gone removal other = some cause := by
  unfold GbCport.removing
  split
  · next pending =>
      have differs : other ≠ gone := by
        rintro rfl
        rw [((queue.listed other).mp pending).2] at before
        cases before
      rw [update_of_ne differs]
      exact before
  · exact before

theorem Queue.frame (phases : ∀ op, (t.phase op).queued = (s.phase op).queued) (fifo : t.txFifo = s.txFifo)
    (removed : t.removed = s.removed) (callbacks : t.callbacks = s.callbacks)
    (hasCallback : ∀ op, (s.phase op).queued = true → t.hasCallback op = s.hasCallback op)
    (owned : ∀ op, t.worker.owned = some op → s.worker.owned = some op ∧ t.worker.cause = s.worker.cause)
    (calling : t.worker.calling = s.worker.calling) : Queue t where
  nodup := by
    rw [fifo]
    exact queue.nodup
  listed := by
    intro op
    rw [fifo, phases, removed]
    exact queue.listed op
  removed := by
    intro op
    rw [phases, removed]
    exact queue.removed op
  owned := by
    intro op mine
    obtain ⟨mine, cause⟩ := owned op mine
    rw [removed, cause]
    exact queue.owned op mine
  called := by
    intro op
    rw [callbacks, removed, calling, queue.called op]
    have answered : Removal.answers (s.removed op) = true → t.hasCallback op = s.hasCallback op := by
      intro answered
      apply hasCallback
      apply queue.removed
      intro absent
      rw [absent] at answered
      cases answered
    grind

theorem Queue.rephase {phase : Phase} (same : phase.queued = (s.phase op).queued)
    (phases : t.phase = update s.phase op phase) (fifo : t.txFifo = s.txFifo) (removed : t.removed = s.removed)
    (callbacks : t.callbacks = s.callbacks)
    (hasCallback : ∀ op, (s.phase op).queued = true → t.hasCallback op = s.hasCallback op)
    (worker : t.worker = s.worker) : Queue t := by
  apply queue.frame _ fifo removed callbacks hasCallback
  · intro op mine
    rw [worker] at mine ⊢
    exact ⟨mine, rfl⟩
  · rw [worker]
  · intro other
    rw [phases, update_apply]
    split
    · next equal => rw [equal, same]
    · rfl

/-- A pending operation that is unlinked for a reason leaves the queue, and if its callback follows, the
worker has still to run it. -/
theorem Queue.unlink {removal : Removal} (pending : op ∈ s.txFifo)
    (phases : ∀ op, (t.phase op).queued = (s.phase op).queued) (fifo : t.txFifo = s.txFifo.erase op)
    (removed : t.removed = update s.removed op (some removal)) (callbacks : t.callbacks = s.callbacks)
    (hasCallback : t.hasCallback = s.hasCallback)
    (owned : ∀ other, t.worker.owned = some other → other = op ∧ t.worker.cause = some removal ∨ s.worker.owned = some other ∧ t.worker.cause = s.worker.cause)
    (calling : ∀ other, other ≠ op → (t.worker.calling = some other ↔ s.worker.calling = some other))
    (follows : Removal.answers (some removal) = true → t.worker.calling = some op) : Queue t := by
  have gone := (queue.listed op).mp pending
  constructor
  · rw [fifo]
    exact queue.nodup.erase op
  · intro other
    rw [fifo, phases, removed, update_apply, queue.nodup.mem_erase_iff, queue.listed other]
    grind
  · intro other
    rw [phases, removed, update_apply]
    have before := queue.removed other
    grind
  · intro other mine
    rw [removed, update_apply]
    rcases owned other mine with ⟨same, cause⟩ | ⟨before, cause⟩
    · rw [if_pos same, cause]
    · have differs : other ≠ op := fun same => queue.not_owned pending (same ▸ before)
      rw [if_neg differs, cause]
      exact queue.owned other before
  · intro other
    have before := queue.called other
    rw [callbacks, hasCallback, removed, update_apply]
    by_cases same : other = op
    · subst same
      rw [gone.2] at before
      rw [if_pos rfl, before]
      simp only [Removal.answers]
      grind [Removal.answers]
    · rw [if_neg same, before]
      have calling := calling other same
      grind

theorem Queue.callback (due : s.worker.calling = some op) (phases : t.phase = s.phase) (fifo : t.txFifo = s.txFifo)
    (removed : t.removed = s.removed) (callbacks : t.callbacks = s.calling op)
    (hasCallback : t.hasCallback = s.hasCallback) (owned : t.worker.owned = s.worker.owned)
    (cause : t.worker.cause = s.worker.cause) (calling : t.worker.calling = none)
    (answers : Removal.answers s.worker.cause = true) : Queue t := by
  constructor
  · rw [fifo]
    exact queue.nodup
  · rw [fifo, phases, removed]
    exact queue.listed
  · rw [phases, removed]
    exact queue.removed
  · rw [owned, cause, removed]
    exact queue.owned
  · intro other
    have before := queue.called other
    have mine := queue.owned op (Worker.owned_of_calling due)
    rw [callbacks, calling, hasCallback, removed, GbCport.calling]
    by_cases same : other = op
    · subst same
      rw [mine, answers] at *
      have none_yet : s.callbacks other = 0 := by
        rw [before, if_neg]
        exact fun both => both.2.1 due
      split
      · next called => simp [called, none_yet]
      · next uncalled => simp [uncalled, none_yet]
    · have elsewhere : s.worker.calling ≠ some other := by
        rw [due]
        exact fun equal => same (Option.some.inj equal).symm
      split
      · rw [update_of_ne same, before]
        simp [elsewhere]
      · rw [before]
        simp [elsewhere]

theorem Queue.enqueue (stamped : s.phase op = .stamped) (phases : t.phase = update s.phase op .sending)
    (fifo : t.txFifo = s.txFifo ++ [op]) (removed : t.removed = s.removed) (callbacks : t.callbacks = s.callbacks)
    (hasCallback : t.hasCallback = s.hasCallback) (worker : t.worker = s.worker) : Queue t := by
  have before : (s.phase op).queued = false := by
    rw [stamped]
    rfl
  have fresh : s.removed op = none := by
    by_contra gone
    rw [queue.removed op gone] at before
    cases before
  constructor
  · rw [fifo]
    have absent : op ∉ s.txFifo := by
      intro pending
      rw [((queue.listed op).mp pending).1] at before
      cases before
    exact queue.nodup.append (List.nodup_singleton op) (List.disjoint_singleton.mpr absent)
  · intro other
    rw [fifo, phases, removed, update_apply, List.mem_append, List.mem_singleton, queue.listed other]
    by_cases same : other = op
    · simp [same, fresh, Phase.queued]
    · simp [same]
  · intro other gone
    rw [removed] at gone
    rw [phases, update_apply]
    split
    · rfl
    · exact queue.removed other gone
  · rw [worker, removed]
    exact queue.owned
  · rw [callbacks, removed, worker, hasCallback]
    exact queue.called

/-- A move keeps `tx_fifo` in accord with the phases. -/
theorem Queue.moves (linked : Linked s action) (moves : Moves machine s action t) : Queue t := by
  cases moves with
  | create op absent | receive op isResponse id absent =>
    exact queue.rephase (by rw [absent]; rfl) rfl rfl rfl rfl (fun _ _ => rfl) rfl
  | sendUnanswered op created _ | drawZero op created _ _ =>
    exact queue.rephase (by rw [created]; rfl) rfl rfl rfl rfl (fun _ _ => rfl) rfl
  | draw op drawing =>
    refine queue.rephase ?_ rfl rfl rfl rfl (fun _ _ => rfl) rfl
    rcases drawing with ⟨created, -⟩ | redraw
    · rw [created]
      rfl
    · rw [redraw]
      rfl
  | otherDraw | destroy op may | tick ticks quiet | fire ticks fires =>
    exact queue.frame (fun _ => rfl) rfl rfl rfl (fun _ _ => rfl) (fun _ mine => ⟨mine, rfl⟩) rfl
  | stamp op hasCallback drawn =>
    refine queue.rephase (by rw [drawn]; rfl) rfl rfl rfl rfl ?_ rfl
    intro other queued
    have differs : other ≠ op := by
      rintro rfl
      rw [drawn] at queued
      cases queued
    exact update_of_ne differs _ _
  | enqueue op stamped => exact queue.enqueue stamped rfl rfl rfl rfl rfl rfl
  | transport op sent sending =>
    refine queue.rephase ?_ rfl rfl rfl rfl (fun _ _ => rfl) rfl
    rw [sending]
    cases sent <;> rfl
  | cleanup op failed =>
    have pending : op ∈ s.txFifo := linked
    refine queue.unlink pending ?_ rfl (if_pos pending) rfl rfl (fun _ mine => .inr ⟨mine, rfl⟩)
      (fun _ _ => Iff.rfl) ?_
    · intro other
      change (update s.phase op .returned other).queued = _
      rw [update_apply]
      split
      · next same =>
          rw [same, failed]
          rfl
      · rfl
    · intro answers
      cases answers
  | popTimedout rest idle first =>
    refine queue.frame (fun _ => rfl) rfl rfl rfl (fun _ _ => rfl) ?_ ?_
    · intro op mine
      cases mine
    · rw [idle]
      rfl
  | popMessage operation isResponse rest idle first =>
    refine queue.frame (fun _ => rfl) rfl rfl rfl (fun _ _ => rfl) ?_ ?_
    · intro op mine
      cases isResponse <;> cases mine
    · rw [idle]
      cases isResponse <;> rfl
  | walk worker walks =>
    obtain ⟨-, owned, before, calling⟩ := walks.owned
    refine queue.frame (fun _ => rfl) rfl rfl rfl (fun _ _ => rfl) ?_ ?_
    · intro op mine
      rw [owned] at mine
      cases mine
    · rw [before]
      exact calling
  | sweepUnlink op niter pc | matchUnlink operation op pc =>
    have pending : op ∈ s.txFifo := linked op (by rw [pc]; rfl)
    refine queue.unlink pending (fun _ => rfl) rfl (if_pos pending) rfl rfl ?_ ?_ ?_
    · intro other mine
      exact .inl ⟨(Option.some.inj mine).symm, rfl⟩
    · intro other differs
      simp [pc, Worker.calling, Ne.symm differs]
    · exact fun _ => rfl
  | sweepCallback op niter pc | matchCallback operation op pc =>
    refine queue.callback ?_ rfl rfl rfl rfl rfl ?_ ?_ rfl ?_
    · rw [pc]
      rfl
    · rw [pc]
      rfl
    · rw [pc]
      rfl
    · rw [pc]
      rfl
  | sweepUnref op niter pc | sweepUpdate pc | matchUnref operation op pc | finish operation pc =>
    refine queue.frame (fun _ => rfl) rfl rfl rfl (fun _ _ => rfl) ?_ ?_
    · intro op mine
      cases mine
    · rw [pc]
      rfl
  | matchAttach operation op pc =>
    refine queue.frame (fun _ => rfl) rfl rfl rfl (fun _ _ => rfl) ?_ ?_
    · intro other mine
      rw [pc]
      exact ⟨mine, rfl⟩
    · rw [pc]
      rfl

end

end Steps

end Phabos.Greybus
