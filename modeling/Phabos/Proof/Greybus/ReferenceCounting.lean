import Phabos.Proof.Greybus.ResponseMatching

namespace Phabos.Greybus
open Library Function

/-- The creator, the sender before the operation is queued, `tx_fifo`, the worker that unlinked it and
`rx_fifo` or the worker that processes it hold an operation. -/
def GbCport.holders (s : GbCport) (op : OpId) : ℕ :=
  (if s.held op = true then 1 else 0) + (if s.phase op = .stamped then 1 else 0) +
    (if op ∈ s.txFifo then 1 else 0) + (if s.worker.owned = some op then 1 else 0) +
      if op ∈ s.inbox then 1 else 0

/-- The operation is prepared for sending. -/
def Phase.preparing : Phase → Bool
  | .redraw | .drawn | .stamped => true
  | _ => false

/-- The counts are those of the holders, and an operation is held while it is prepared for sending. -/
structure References (s : GbCport) : Prop where
  counted : s.refs.Counted (fun op => s.phase op = .absent) s.holders
  preparing : ∀ op, (s.phase op).preparing = true → s.held op = true
  unattached : ∀ operation op, s.worker = .matchAttach operation op → s.refs.response op = none

section Steps
variable {machine : Machine} {s t : GbCport} {action : Action}

theorem References.init : References gbInitCport where
  counted := by
    constructor <;> simp [gbInitCport, Refs.Linked, GbCport.holders, GbCport.inbox, Worker.owned, Worker.message]
  preparing := by simp [gbInitCport, Phase.preparing]
  unattached := by simp [gbInitCport]

variable {op : OpId}

theorem References.rephase (references : References s) {phase : Phase} (phases : t.phase = update s.phase op phase)
    (refs : t.refs = s.refs) (present : s.phase op ≠ .absent) (born : phase ≠ .absent)
    (stamped : s.phase op ≠ .stamped) (unstamped : phase ≠ .stamped)
    (preparing : phase.preparing = true → s.held op = true) (held : t.held = s.held) (fifo : t.txFifo = s.txFifo)
    (rxFifo : t.rxFifo = s.rxFifo) (worker : t.worker = s.worker) : References t where
  counted := by
    rw [refs]
    apply references.counted.congr
    · intro other
      rw [phases, update_apply]
      grind
    · intro other
      rw [GbCport.holders, GbCport.holders, GbCport.inbox, GbCport.inbox, phases, update_apply, held, fifo,
        rxFifo, worker]
      grind
  preparing := by
    intro other now
    rw [phases, update_apply] at now
    rw [held]
    have before := references.preparing other
    grind
  unattached := by
    rw [refs, worker]
    exact references.unattached

theorem References.frame (references : References s) (refs : t.refs = s.refs) (phases : t.phase = s.phase)
    (held : t.held = s.held) (holders : ∀ op, t.holders op = s.holders op)
    (worker : ∀ operation op, t.worker = .matchAttach operation op → s.refs.response op = none) :
    References t where
  counted := by
    rw [refs]
    exact references.counted.congr (fun op => by rw [phases]) holders
  preparing := by
    rw [phases, held]
    exact references.preparing
  unattached := by
    rw [refs]
    exact worker

theorem References.release (references : References s)
    (refs : t.refs = gbOperationUnref unrefDepth s.refs op)
    (births : ∀ op, t.phase op = .absent ↔ s.phase op = .absent)
    (fewer : ∀ other, s.holders other = update t.holders op (t.holders op + 1) other)
    (preparing : ∀ other, (t.phase other).preparing = true →
      (s.phase other).preparing = true ∧ t.held other = s.held other)
    (worker : ∀ operation op, t.worker = .matchAttach operation op →
      s.worker = .matchAttach operation op) : References t where
  counted := by
    rw [refs]
    exact (references.counted.unref (funext fewer)).congr births fun _ => rfl
  preparing := by
    intro op now
    obtain ⟨before, held⟩ := preparing op now
    rw [held]
    exact references.preparing op before
  unattached := by
    intro operation other pc
    have none := references.unattached operation other (worker operation other pc)
    rw [refs]
    cases link : (gbOperationUnref unrefDepth s.refs op).response other with
    | none => rfl
    | some message =>
      rw [gbOperationUnref_response _ _ _ link] at none
      cases none

theorem GbCport.holders_congr (phases : t.phase = s.phase) (held : t.held = s.held)
    (fifo : t.txFifo = s.txFifo) (owned : t.worker.owned = s.worker.owned) (inbox : t.inbox = s.inbox)
    (op : OpId) : t.holders op = s.holders op := by
  rw [GbCport.holders, GbCport.holders, phases, held, fifo, owned, inbox]

theorem References.turn (references : References s) (refs : t.refs = s.refs) (phases : t.phase = s.phase)
    (held : t.held = s.held) (fifo : t.txFifo = s.txFifo) (owned : t.worker.owned = s.worker.owned)
    (inbox : t.inbox = s.inbox) (elsewhere : ∀ operation op, t.worker ≠ .matchAttach operation op) : References t :=
  references.frame refs phases held (GbCport.holders_congr phases held fifo owned inbox)
    fun operation op pc => absurd pc (elsewhere operation op)

theorem GbCport.holders_unlink (queue : Queue s) (pending : op ∈ s.txFifo)
    (idle : s.worker.owned = none) (phases : t.phase = s.phase) (held : t.held = s.held)
    (fifo : t.txFifo = s.txFifo.erase op) (owned : t.worker.owned = some op) (inbox : t.inbox = s.inbox)
    (other : OpId) : t.holders other = s.holders other := by
  rw [GbCport.holders, GbCport.holders, phases, held, fifo, owned, inbox, idle]
  by_cases same : other = op
  · subst same
    simp only [queue.nodup.mem_erase_iff]
    simp [pending]
  · have kept : other ∈ s.txFifo.erase op ↔ other ∈ s.txFifo := List.mem_erase_of_ne same
    simp [kept, Ne.symm same]

section
variable (references : References s)
include references

theorem References.create (absent : s.phase op = .absent) :
    References { s with
      phase := update s.phase op .created
      id := update s.id op 0
      held := update s.held op true
      refs := s.refs.create op } := by
  obtain ⟨counted, preparing, unattached⟩ := references
  have unheld : s.held op ≠ true := by
    intro held
    have positive := counted.pos (show 0 < s.holders op by
      unfold GbCport.holders
      rw [if_pos held]
      omega)
    have zero := counted.unborn op absent
    omega
  refine ⟨counted.create absent ?_ ?_, ?_, unattached⟩
  · intro other
    simp only [update_apply]
    grind
  · funext other
    simp only [GbCport.holders, GbCport.inbox, update_apply]
    grind
  · intro other
    simp only [update_apply]
    grind

theorem References.stamp (hasCallback : Bool) (drawn : s.phase op = .drawn) :
    References { s with
      phase := update s.phase op .stamped
      time := update s.time op s.now
      hasCallback := update s.hasCallback op hasCallback
      refs := gbOperationRef s.refs op } := by
  obtain ⟨counted, preparing, unattached⟩ := references
  have held := preparing op (by rw [drawn]; rfl)
  have positive : 0 < s.holders op := by
    unfold GbCport.holders
    rw [if_pos held]
    omega
  have kept : (gbOperationRef s.refs op).response = s.refs.response := by
    unfold gbOperationRef
    split <;> rfl
  refine ⟨counted.ref positive ?_ ?_, ?_, ?_⟩
  · intro other
    simp only [update_apply]
    grind
  · funext other
    simp only [GbCport.holders, GbCport.inbox, update_apply]
    grind
  · intro other
    simp only [update_apply]
    grind
  · rw [kept]
    exact unattached

theorem References.destroy (queue : Queue s) (may : s.mayDestroy op = true) :
    References { s with
      held := update s.held op false
      refs := gbOperationUnref unrefDepth s.refs op } := by
  have held : s.held op = true := by
    unfold GbCport.mayDestroy at may
    grind
  have settled : (s.phase op).preparing = false := by
    by_contra preparing
    have uncalled : s.callbacks op = 0 := by
      rw [queue.called op, if_neg]
      intro answered
      have queued := queue.removed op (fun none => by rw [none] at answered; cases answered.1)
      cases phase : s.phase op <;> simp_all [Phase.preparing, Phase.queued]
    unfold GbCport.mayDestroy at may
    cases phase : s.phase op <;> simp_all [Phase.preparing]
  refine references.release rfl (fun _ => Iff.rfl) ?_ ?_ (fun _ _ pc => pc)
  · intro other
    simp only [GbCport.holders, GbCport.inbox, update_apply]
    grind
  · intro other preparing
    refine ⟨preparing, ?_⟩
    have differs : other ≠ op := by
      rintro rfl
      exact absurd preparing (by rw [settled]; decide)
    exact update_of_ne differs _ _

theorem References.receive (inbox : Inbox s) (isResponse : Bool) (id : BitVec 16) (absent : s.phase op = .absent) :
    References { s with
      phase := update s.phase op .received
      id := update s.id op id
      rxFifo := s.rxFifo ++ [.message op isResponse]
      refs := s.refs.create op } := by
  obtain ⟨counted, preparing, unattached⟩ := references
  have fresh : op ∉ s.inbox := by
    intro there
    rw [inbox.received op there] at absent
    cases absent
  refine ⟨counted.create absent ?_ ?_, ?_, unattached⟩
  · intro other
    simp only [update_apply]
    grind
  · funext other
    have messages : GbCport.inbox { s with
        phase := update s.phase op .received
        id := update s.id op id
        rxFifo := s.rxFifo ++ [.message op isResponse]
        refs := s.refs.create op } = s.inbox ++ [op] := by
      simp only [GbCport.inbox, List.filterMap_append, List.append_assoc]
      rfl
    simp only [GbCport.holders, update_apply, messages]
    grind
  · intro other
    simp only [update_apply]
    grind [Phase.preparing]

theorem References.attach (queue : Queue s) (inbox : Inbox s) (attached : Attached s) {operation op : OpId}
    (pc : s.worker = .matchAttach operation op) :
    References { s with
      refs := (gbOperationRef s.refs operation).attach op operation
      worker := .matchCallback operation op } := by
  obtain ⟨counted, preparing, unattached⟩ := references
  have gone : s.removed op = some (.response operation) := by
    have owned := queue.owned op (by rw [pc]; rfl)
    rw [pc] at owned
    exact owned
  have queued : (s.phase op).queued = true := queue.removed op (by rw [gone]; exact Option.some_ne_none _)
  have received : s.phase operation = .received := (inbox.matched op operation gone).1
  have differs : operation ≠ op := by
    rintro rfl
    rw [received] at queued
    cases queued
  have owner : 0 < s.holders op := by
    unfold GbCport.holders
    rw [if_pos (show s.worker.owned = some op by rw [pc]; rfl)]
    omega
  have processing : 0 < s.holders operation := by
    have there : operation ∈ s.inbox := by
      simp [GbCport.inbox, pc, Worker.message]
    unfold GbCport.holders
    rw [if_pos there]
    omega
  have first := unattached operation op pc
  have twice := counted.ref processing (fun _ => Iff.rfl) rfl
  have kept : (gbOperationRef s.refs operation).response = s.refs.response := by
    unfold gbOperationRef
    split <;> rfl
  refine ⟨(twice.attach ?_ ?_ ?_ ?_ ?_ differs rfl).congr (fun _ => Iff.rfl) ?_, preparing, ?_⟩
  · apply twice.pos
    rw [update_of_ne (Ne.symm differs)]
    exact owner
  · rw [kept]
    exact first
  · rintro ⟨request, link⟩
    rw [kept] at link
    have message := (inbox.matched request op (attached request op link)).1
    rw [message] at queued
    cases queued
  · rintro ⟨request, link⟩
    rw [kept] at link
    have same := inbox.once request op operation (attached request operation link) gone
    rw [same, first] at link
    cases link
  · rw [kept]
    cases link : s.refs.response operation with
    | none => rfl
    | some message =>
      have queued := queue.removed operation
        (by rw [attached operation message link]; exact Option.some_ne_none _)
      rw [received] at queued
      cases queued
  · refine GbCport.holders_congr rfl rfl rfl ?_ ?_
    · rw [pc]
      rfl
    · rw [GbCport.inbox, GbCport.inbox, pc]
      rfl
  · rintro message other ⟨⟩

/-- A step keeps the count of each operation at the number of its holders. -/
theorem References.moves (queue : Queue s) (inbox : Inbox s) (attached : Attached s) (linked : Linked s action)
    (moves : Moves machine s action t) : References t := by
  cases moves with
  | create op absent => exact references.create absent
  | sendUnanswered op created held | drawZero op created held zero =>
    exact references.rephase rfl rfl (by rw [created]; decide) (by decide) (by rw [created]; decide)
      (by decide) (fun _ => held) rfl rfl rfl rfl
  | draw op drawing =>
    rcases drawing with ⟨created, held, -⟩ | redraw
    · exact references.rephase rfl rfl (by rw [created]; decide) (by decide) (by rw [created]; decide)
        (by decide) (fun _ => held) rfl rfl rfl rfl
    · exact references.rephase rfl rfl (by rw [redraw]; decide) (by decide) (by rw [redraw]; decide)
        (by decide) (fun _ => references.preparing op (by rw [redraw]; rfl)) rfl rfl rfl rfl
  | otherDraw | tick ticks quiet => exact references.frame rfl rfl rfl (fun _ => rfl) references.unattached
  | stamp op hasCallback drawn => exact references.stamp hasCallback drawn
  | enqueue op stamped =>
    obtain ⟨counted, preparing, unattached⟩ := references
    have absent : op ∉ s.txFifo := by
      intro pending
      have queued := ((queue.listed op).mp pending).1
      rw [stamped] at queued
      cases queued
    refine ⟨counted.congr ?_ ?_, ?_, unattached⟩
    · intro other
      simp only [update_apply]
      grind
    · intro other
      simp only [GbCport.holders, GbCport.inbox, update_apply]
      grind
    · intro other
      simp only [update_apply]
      grind [Phase.preparing]
  | transport op sent sending =>
    refine references.rephase rfl rfl (by rw [sending]; decide) ?_ (by rw [sending]; decide) ?_ ?_ rfl rfl
      rfl rfl
    · cases sent <;> decide
    · cases sent <;> decide
    · intro preparing
      cases sent <;> cases preparing
  | cleanup op failed =>
    have pending : op ∈ s.txFifo := linked
    refine references.release rfl ?_ ?_ ?_ (fun _ _ pc => pc)
    · intro other
      simp only [update_apply]
      grind
    · intro other
      simp only [GbCport.holders, GbCport.inbox, update_apply, queue.nodup.mem_erase_iff]
      grind
    · intro other
      simp only [update_apply]
      grind [Phase.preparing]
  | destroy op may => exact references.destroy queue may
  | receive op isResponse id absent => exact references.receive inbox isResponse id absent
  | fire ticks fires =>
    refine references.frame rfl rfl rfl (GbCport.holders_congr rfl rfl rfl rfl ?_) references.unattached
    rw [GbCport.inbox, GbCport.inbox]
    congr 1
    change (if _ then _ else _ : List RxItem).filterMap RxItem.message? = _
    split
    · rfl
    · rw [List.filterMap_append]
      exact List.append_nil _
  | popTimedout rest idle first =>
    refine references.turn rfl rfl rfl rfl ?_ ?_ ?_
    · rw [idle]
      rfl
    · rw [GbCport.inbox, GbCport.inbox, idle, first]
      rfl
    · rintro operation op ⟨⟩
  | popMessage operation isResponse rest idle first =>
    refine references.turn rfl rfl rfl rfl ?_ ?_ ?_
    · rw [idle]
      cases isResponse <;> rfl
    · rw [GbCport.inbox, GbCport.inbox, idle, first]
      cases isResponse <;> rfl
    · intro operation op pc
      cases isResponse <;> cases pc
  | walk worker walks =>
    obtain ⟨before, after, -, -⟩ := walks.owned
    refine references.turn rfl rfl rfl rfl (after.trans before.symm) ?_ ?_
    · rw [GbCport.inbox, GbCport.inbox, walks.message.1]
    · rintro operation op rfl
      cases after
  | sweepUnlink op niter pc =>
    have pending : op ∈ s.txFifo := linked op (by rw [pc]; rfl)
    refine references.frame rfl rfl rfl ?_ ?_
    · refine GbCport.holders_unlink queue pending ?_ rfl rfl rfl rfl ?_
      · rw [pc]
        rfl
      · rw [GbCport.inbox, GbCport.inbox, pc]
        rfl
    · rintro operation other ⟨⟩
  | sweepCallback op niter pc | sweepUpdate pc | matchCallback operation op pc =>
    refine references.turn rfl rfl rfl rfl ?_ ?_ ?_
    · rw [pc]
      rfl
    · rw [GbCport.inbox, GbCport.inbox, pc]
      rfl
    · rintro operation op ⟨⟩
  | sweepUnref op niter pc | matchUnref operation op pc =>
    refine references.release rfl (fun _ => Iff.rfl) ?_ (fun _ now => ⟨now, rfl⟩) ?_
    · intro other
      simp only [GbCport.holders, GbCport.inbox, pc, Worker.owned, Worker.message, update_apply]
      grind
    · rintro operation other ⟨⟩
  | matchUnlink operation op pc =>
    have pending : op ∈ s.txFifo := linked op (by rw [pc]; rfl)
    refine references.frame rfl rfl rfl ?_ ?_
    · refine GbCport.holders_unlink queue pending ?_ rfl rfl rfl rfl ?_
      · rw [pc]
        rfl
      · rw [GbCport.inbox, GbCport.inbox, pc]
        rfl
    · rintro message other ⟨⟩
      cases link : s.refs.response op with
      | none => rfl
      | some message =>
        have gone := attached op message link
        rw [((queue.listed op).mp pending).2] at gone
        cases gone
  | matchAttach operation op pc => exact references.attach queue inbox attached pc
  | finish operation pc =>
    have fresh := inbox.nodup
    rw [GbCport.inbox, pc] at fresh
    refine references.release rfl (fun _ => Iff.rfl) ?_ (fun _ now => ⟨now, rfl⟩) ?_
    · intro other
      simp only [GbCport.holders, GbCport.inbox, pc, Worker.owned, Worker.message, update_apply] at fresh ⊢
      grind
    · rintro operation other ⟨⟩

end

end Steps

section Counting
variable (machine : Machine)

/-- The counts are those of the holders in every run. -/
theorem References.run {actions : List Action} {final : GbCport}
    (guarded : Guarded (step machine) Linked gbInitCport actions)
    (ran : Library.run (step machine) gbInitCport actions = some final) :
    Pending final ∧ References final := by
  apply run_invariant_of_guarded (fun s => Pending s ∧ References s) ⟨Pending.init, References.init⟩ guarded ran
  rintro s action t ⟨pending, references⟩ linked stepped
  have moves := step_moves stepped
  exact ⟨pending.moves linked moves,
    references.moves pending.queue pending.inbox pending.attached linked moves⟩

/-- As long as no failed send pulls an operation away from the worker, no unreferenced operation is
released, and an operation is returned at most once. A returned operation is neither in `tx_fifo` nor
held by its creator nor a response, and an operation without a holder was returned. -/
theorem gb_operation_reference_counting (actions : List Action) (final : GbCport)
    (guarded : Guarded (step machine) Linked gbInitCport actions)
    (ran : Library.run (step machine) gbInitCport actions = some final) :
    final.refs.badUnrefs = 0 ∧ (∀ op, final.refs.freed op ≤ 1) ∧
      (∀ op, 0 < final.refs.freed op → op ∉ final.txFifo ∧ final.held op = false ∧
        ∀ other, final.refs.response other ≠ some op) ∧
      ∀ op, final.phase op ≠ .absent → final.holders op = 0 →
        (∀ other, final.refs.response other ≠ some op) → final.refs.freed op = 1 := by
  obtain ⟨-, ⟨counted, -, -⟩⟩ := References.run machine guarded ran
  refine ⟨counted.never, ?_, ?_, ?_⟩
  · intro op
    by_cases dead : final.refs.refCount op = 0
    · by_cases absent : final.phase op = .absent
      · rw [(counted.unborn op absent).2]
        omega
      · exact Nat.le_of_eq (counted.dead op absent dead)
    · rw [counted.live op dead]
      omega
  · intro op freed
    have dead : final.refs.refCount op = 0 := by
      by_contra live
      rw [counted.live op live] at freed
      omega
    have unheld : final.holders op = 0 := by
      by_contra held
      have positive := counted.pos (Nat.pos_of_ne_zero held)
      omega
    unfold GbCport.holders at unheld
    refine ⟨?_, ?_, ?_⟩
    · intro pending
      rw [if_pos pending] at unheld
      omega
    · by_contra held
      rw [if_pos (by simpa using held)] at unheld
      omega
    · intro other link
      have count := counted.linked op ⟨other, link⟩
      omega
  · intro op born unheld unlinked
    apply counted.dead op born
    rw [counted.unlinked op (fun ⟨other, link⟩ => unlinked other link), unheld]

/-- An operation times out while the transport sends it, and its creator destroys it. -/
def destroyAfterTimeout : List Action :=
  [.create 0, .draw 0, .stamp 0 true, .enqueue 0, .tick 1001,
    .work, .work, .work, .work, .work, .work, .work, .work, .work, .work,
    .transport 0 true, .destroy 0]

/-- The operation is returned when the last of its holders releases it. -/
theorem gb_operation_reference_counting_timeout : ∃ final,
    Library.run (step .tsb) gbInitCport destroyAfterTimeout = some final ∧
      final.refs.badUnrefs = 0 ∧ final.refs.freed 0 = 1 ∧ 0 ∉ final.txFifo := by
  have ran : (Library.run (step .tsb) gbInitCport destroyAfterTimeout).any
      (fun final => final.refs.freed 0 = 1) = true := by decide +kernel
  have guarded : Guarded (step .tsb) Linked gbInitCport destroyAfterTimeout := by
    decide +kernel
  obtain ⟨final, run, facts⟩ := (Option.any_eq_true _ _).mp ran
  have freed : final.refs.freed 0 = 1 := of_decide_eq_true facts
  have counting := gb_operation_reference_counting .tsb destroyAfterTimeout final guarded run
  exact ⟨final, run, counting.1, freed, (counting.2.2.1 0 (by omega)).1⟩

/-- An operation times out while the transport sends it, and then the send fails. -/
def failedSendAfterSweep : List Action :=
  [.create 0, .draw 0, .stamp 0 true, .enqueue 0, .tick 1001,
    .work, .work, .work, .work, .work, .work, .work, .work, .work, .work,
    .transport 0 false, .cleanup 0]

/-- The failed send returns an operation that its creator holds, and the creator then releases it again. -/
theorem gb_operation_send_request_frees_held : ∃ final,
    Library.run (step .tsb) gbInitCport failedSendAfterSweep = some final ∧
      final.refs.freed 0 = 1 ∧ final.held 0 = true ∧
      ∃ last, step .tsb final (.destroy 0) = some last ∧ last.refs.badUnrefs = 1 := by
  have ran : (Library.run (step .tsb) gbInitCport failedSendAfterSweep).any (fun final =>
      final.refs.freed 0 = 1 ∧ final.held 0 = true ∧
        (step .tsb final (.destroy 0)).any (fun last => last.refs.badUnrefs = 1) = true) = true := by
    decide +kernel
  obtain ⟨final, run, facts⟩ := (Option.any_eq_true _ _).mp ran
  obtain ⟨freed, held, destroyed⟩ := of_decide_eq_true facts
  obtain ⟨last, stepped, bad⟩ := (Option.any_eq_true _ _).mp destroyed
  exact ⟨final, run, freed, held, last, stepped, of_decide_eq_true bad⟩

end Counting

end Phabos.Greybus
