import Phabos.Proof.Greybus.MessageInbox
import Phabos.Proof.Greybus.Refs

namespace Phabos.Greybus
open Library Function

/-- The operation has drawn an id. -/
def Phase.drew : Phase → Bool
  | .redraw | .drawn | .stamped | .sending | .failed | .returned => true
  | _ => false

/-- From the draw of its id until its removal from `tx_fifo`, an operation stays pending. -/
def Outstanding (s : GbCport) (op : OpId) : Prop :=
  s.phase op = .redraw ∨ s.phase op = .drawn ∨ s.phase op = .stamped ∨ op ∈ s.txFifo

/-- Fewer than 65535 ids are drawn while an operation stays pending. -/
def FewDraws (s : GbCport) : Action → Prop
  | .draw _ | .otherDraw => ∀ op, Outstanding s op → s.draws + 1 - s.drawnAt op < 65535
  | _ => True

/-- The ids of the operations are the low half of the counter, at the draws that they come from. -/
structure Ids (s : GbCport) : Prop where
  requestId : s.requestId = BitVec.ofNat 32 s.draws
  ids : ∀ op, (s.phase op).drew = true → s.id op = BitVec.ofNat 16 (s.drawnAt op)
  zero : ∀ op, s.phase op = .redraw → s.id op = 0
  nonzero : ∀ op, (s.phase op).drew = true → s.phase op ≠ .redraw → s.id op ≠ 0
  order : ∀ op, (s.phase op).drew = true → s.drawnAt op ≤ s.draws
  distinct : ∀ op other, (s.phase op).drew = true → (s.phase other).drew = true →
    s.drawnAt op = s.drawnAt other → op = other
  recent : ∀ op, Outstanding s op → s.draws - s.drawnAt op < 65535

/-- A response is attached only to the operation that it took off `tx_fifo`. -/
def Attached (s : GbCport) : Prop :=
  ∀ op operation, s.refs.response op = some operation → s.removed op = some (.response operation)

theorem FewDraws.of_draws {s : GbCport} {action : Action} (few : s.draws + 1 < 65535) :
    FewDraws s action := by
  cases action with
  | draw op =>
    intro other _
    omega
  | otherDraw =>
    intro other _
    omega
  | _ => trivial

section Ids
variable {machine : Machine} {s t : GbCport} {action : Action}

theorem setWidth_draw (draws : ℕ) :
    (BitVec.ofNat 32 draws + 1).setWidth 16 = BitVec.ofNat 16 (draws + 1) := by
  rw [show BitVec.ofNat 32 draws + 1 = BitVec.ofNat 32 (draws + 1) from (BitVec.ofNat_add draws 1).symm]
  apply BitVec.eq_of_toNat_eq
  simp only [BitVec.toNat_setWidth, BitVec.toNat_ofNat]
  omega

theorem eq_of_ofNat_eq {draws one other : ℕ} (first : one ≤ draws) (second : other ≤ draws)
    (near : draws - one < 65535) (close : draws - other < 65535)
    (same : BitVec.ofNat 16 one = BitVec.ofNat 16 other) : one = other := by
  have values := congrArg BitVec.toNat same
  simp only [BitVec.toNat_ofNat] at values
  omega

theorem Phase.drew_of_queued {phase : Phase} (queued : phase.queued = true) : phase.drew = true := by
  cases phase <;> first | rfl | cases queued

theorem Ids.init : Ids gbInitCport where
  requestId := rfl
  ids := by simp [gbInitCport, Phase.drew]
  zero := by simp [gbInitCport]
  nonzero := by simp [gbInitCport, Phase.drew]
  order := by simp [gbInitCport, Phase.drew]
  distinct := by simp [gbInitCport, Phase.drew]
  recent := by simp [gbInitCport, Outstanding]

theorem Outstanding.drew (queue : Queue s) {op : OpId} (outstanding : Outstanding s op) :
    (s.phase op).drew = true := by
  rcases outstanding with redraw | drawn | stamped | pending
  · rw [redraw]
    rfl
  · rw [drawn]
    rfl
  · rw [stamped]
    rfl
  · exact Phase.drew_of_queued ((queue.listed op).mp pending).1

/-- Two outstanding operations have different ids. -/
theorem Ids.eq_of_id_eq (ids : Ids s) (queue : Queue s) {op other : OpId}
    (outstanding : Outstanding s op) (too : Outstanding s other) (same : s.id op = s.id other) :
    op = other := by
  have drew := outstanding.drew queue
  have also := too.drew queue
  apply ids.distinct op other drew also
  apply eq_of_ofNat_eq (ids.order op drew) (ids.order other also) (ids.recent op outstanding)
    (ids.recent other too)
  rw [← ids.ids op drew, ← ids.ids other also]
  exact same

theorem Ids.frame (ids : Ids s) (requestId : t.requestId = s.requestId) (draws : t.draws = s.draws)
    (drawnAt : t.drawnAt = s.drawnAt)
    (phases : ∀ op, (t.phase op).drew = true → (s.phase op).drew = true ∧ t.id op = s.id op ∧
      (t.phase op = .redraw ↔ s.phase op = .redraw))
    (outstanding : ∀ op, Outstanding t op → Outstanding s op) : Ids t where
  requestId := by
    rw [requestId, draws]
    exact ids.requestId
  ids := by
    intro op drew
    obtain ⟨before, same, -⟩ := phases op drew
    rw [same, drawnAt]
    exact ids.ids op before
  zero := by
    intro op redraw
    obtain ⟨-, same, also⟩ := phases op (by rw [redraw]; rfl)
    rw [same]
    exact ids.zero op (also.mp redraw)
  nonzero := by
    intro op drew settled
    obtain ⟨before, same, also⟩ := phases op drew
    rw [same]
    exact ids.nonzero op before (fun redraw => settled (also.mpr redraw))
  order := by
    intro op drew
    rw [drawnAt, draws]
    exact ids.order op (phases op drew).1
  distinct := by
    intro op other drew too
    rw [drawnAt]
    exact ids.distinct op other (phases op drew).1 (phases other too).1
  recent := by
    intro op pending
    rw [draws, drawnAt]
    exact ids.recent op (outstanding op pending)

theorem Ids.rephase (ids : Ids s) {op : OpId} {phase : Phase}
    (drew : phase.drew = false ∨
      (s.phase op).drew = true ∧ t.id op = s.id op ∧ s.phase op ≠ .redraw)
    (redraw : phase ≠ .redraw)
    (outstanding : ¬(phase = .drawn ∨ phase = .stamped) ∨ s.phase op = .drawn)
    (requestId : t.requestId = s.requestId) (draws : t.draws = s.draws) (drawnAt : t.drawnAt = s.drawnAt)
    (phases : t.phase = update s.phase op phase) (others : ∀ other, other ≠ op → t.id other = s.id other)
    (fifo : ∀ other ∈ t.txFifo, other ∈ s.txFifo ∨ other = op ∧ s.phase op = .stamped) : Ids t := by
  apply ids.frame requestId draws drawnAt
  · intro other now
    rw [phases, update_apply] at now ⊢
    by_cases same : other = op
    · subst same
      simp only [if_true] at now ⊢
      obtain ⟨before, same, settled⟩ := drew.resolve_left (by rw [now]; decide)
      exact ⟨before, same, iff_of_false redraw settled⟩
    · simp only [if_neg same] at now ⊢
      exact ⟨now, others other same, trivial⟩
  · intro other pending
    unfold Outstanding at pending ⊢
    rw [phases, update_apply] at pending
    by_cases same : other = op
    · subst same
      simp only [if_true] at pending
      grind
    · simp only [if_neg same] at pending
      grind

theorem Ids.draw (ids : Ids s) {op : OpId} {phase : Phase} (few : FewDraws s (.draw op))
    (redraw : phase = .redraw ↔ (s.requestId + 1).setWidth 16 = 0) (requestId : t.requestId = s.requestId + 1)
    (draws : t.draws = s.draws + 1) (drawnAt : t.drawnAt = update s.drawnAt op (s.draws + 1))
    (newId : t.id = update s.id op ((s.requestId + 1).setWidth 16)) (phases : t.phase = update s.phase op phase)
    (fifo : t.txFifo = s.txFifo) : Ids t := by
  have others : ∀ other, other ≠ op → t.phase other = s.phase other ∧ t.id other = s.id other ∧
      t.drawnAt other = s.drawnAt other := by
    intro other differs
    rw [phases, newId, drawnAt, update_of_ne differs, update_of_ne differs, update_of_ne differs]
    exact ⟨rfl, rfl, rfl⟩
  have mine : t.phase op = phase ∧ t.id op = (s.requestId + 1).setWidth 16 ∧
      t.drawnAt op = s.draws + 1 := by
    rw [phases, newId, drawnAt, update_self, update_self, update_self]
    exact ⟨rfl, rfl, rfl⟩
  have drawn : (s.requestId + 1).setWidth 16 = BitVec.ofNat 16 (s.draws + 1) := by
    rw [ids.requestId]
    exact setWidth_draw s.draws
  constructor
  · rw [requestId, draws, ids.requestId]
    exact (BitVec.ofNat_add s.draws 1).symm
  · intro other now
    by_cases same : other = op
    · rw [same, mine.2.1, mine.2.2, drawn]
    · obtain ⟨phase, id, number⟩ := others other same
      rw [phase] at now
      rw [id, number]
      exact ids.ids other now
  · intro other now
    by_cases same : other = op
    · rw [same, mine.1] at now
      rw [same, mine.2.1]
      exact redraw.mp now
    · obtain ⟨phase, id, -⟩ := others other same
      rw [phase] at now
      rw [id]
      exact ids.zero other now
  · intro other now settled
    by_cases same : other = op
    · rw [same, mine.1] at settled
      rw [same, mine.2.1]
      exact fun zero => settled (redraw.mpr zero)
    · obtain ⟨phase, id, -⟩ := others other same
      rw [phase] at now settled
      rw [id]
      exact ids.nonzero other now settled
  · intro other now
    rw [draws]
    by_cases same : other = op
    · exact Nat.le_of_eq (by rw [same, mine.2.2])
    · obtain ⟨phase, -, number⟩ := others other same
      rw [phase] at now
      rw [number]
      exact Nat.le_succ_of_le (ids.order other now)
  · intro one other now also equal
    have fresh : ∀ other, other ≠ op → (t.phase other).drew = true → t.drawnAt other ≠ t.drawnAt op := by
      intro other differs now
      obtain ⟨phase, -, number⟩ := others other differs
      rw [phase] at now
      rw [number, mine.2.2]
      exact Nat.ne_of_lt (Nat.lt_succ_of_le (ids.order other now))
    by_cases first : one = op
    · by_contra differs
      rw [first] at equal differs
      exact fresh other (Ne.symm differs) also equal.symm
    · by_cases second : other = op
      · rw [second] at equal
        exact absurd equal (fresh one first now)
      · obtain ⟨phase, -, number⟩ := others one first
        obtain ⟨phase', -, number'⟩ := others other second
        rw [phase] at now
        rw [phase'] at also
        rw [number, number'] at equal
        exact ids.distinct one other now also equal
  · intro other pending
    rw [draws]
    by_cases same : other = op
    · rw [same, mine.2.2]
      omega
    · obtain ⟨phase, -, number⟩ := others other same
      rw [number]
      apply few other
      unfold Outstanding at pending ⊢
      rw [phase, fifo] at pending
      exact pending

theorem Ids.redraw (ids : Ids s) {op : OpId} (few : FewDraws s (.draw op))
    (redraw : s.phase op = .redraw) : (s.requestId + 1).setWidth 16 ≠ 0 := by
  have drew : (s.phase op).drew = true := by
    rw [redraw]
    rfl
  have first := ids.ids op drew
  have order := ids.order op drew
  have near : s.draws + 1 - s.drawnAt op < 65535 := few op (.inl redraw)
  rw [ids.zero op redraw] at first
  rw [ids.requestId, setWidth_draw]
  intro zero
  have firstValue := congrArg BitVec.toNat first
  have value := congrArg BitVec.toNat zero
  simp only [BitVec.toNat_ofNat] at firstValue value
  omega

/-- A step keeps the ids apart as long as few are drawn. -/
theorem Ids.moves (ids : Ids s) (few : FewDraws s action) (moves : Moves machine s action t) : Ids t := by
  cases moves with
  | create op absent | sendUnanswered op created _ | receive op isResponse id absent =>
    exact ids.rephase (.inl rfl) (by decide) (.inl (by decide)) rfl rfl rfl rfl
      (fun other differs => update_of_ne differs _ _) (fun _ pending => .inl pending)
  | drawZero op created _ zero =>
    exact ids.draw few (iff_of_true rfl zero) rfl rfl rfl (by rw [zero]) rfl rfl
  | draw op drawing =>
    refine ids.draw few (iff_of_false (by decide) ?_) rfl rfl rfl rfl rfl rfl
    rcases drawing with ⟨-, -, nonzero⟩ | redraw
    · exact nonzero
    · exact ids.redraw few redraw
  | otherDraw =>
    obtain ⟨requestId, equal, zero, nonzero, order, distinct, recent⟩ := ids
    refine ⟨?_, equal, zero, nonzero, fun op drew => Nat.le_succ_of_le (order op drew), distinct, few⟩
    change s.requestId + 1 = _
    rw [requestId]
    exact (BitVec.ofNat_add s.draws 1).symm
  | stamp op hasCallback drawn =>
    exact ids.rephase (.inr ⟨by rw [drawn]; rfl, rfl, by rw [drawn]; decide⟩) (by decide)
      (.inr drawn) rfl rfl rfl rfl (fun _ _ => rfl) (fun _ pending => .inl pending)
  | enqueue op stamped =>
    refine ids.rephase (.inr ⟨by rw [stamped]; rfl, rfl, by rw [stamped]; decide⟩) (by decide)
      (.inl (by decide)) rfl rfl rfl rfl (fun _ _ => rfl) ?_
    intro other pending
    rcases List.mem_append.mp pending with before | new
    · exact .inl before
    · exact .inr ⟨List.mem_singleton.mp new, stamped⟩
  | transport op sent sending =>
    refine ids.rephase (.inr ⟨by rw [sending]; rfl, rfl, by rw [sending]; decide⟩) ?_ (.inl ?_) rfl rfl
      rfl rfl (fun _ _ => rfl) (fun _ pending => .inl pending)
    · cases sent <;> decide
    · cases sent <;> decide
  | cleanup op failed =>
    exact ids.rephase (.inr ⟨by rw [failed]; rfl, rfl, by rw [failed]; decide⟩) (by decide)
      (.inl (by decide)) rfl rfl rfl rfl (fun _ _ => rfl) (fun _ pending => .inl (List.mem_of_mem_erase pending))
  | sweepUnlink op niter pc | matchUnlink operation op pc =>
    refine ids.frame rfl rfl rfl (fun _ drew => ⟨drew, rfl, Iff.rfl⟩) ?_
    exact fun other pending => pending.imp_right fun later => later.imp_right fun later =>
      later.imp_right List.mem_of_mem_erase
  | _ => exact ids.frame rfl rfl rfl (fun _ drew => ⟨drew, rfl, Iff.rfl⟩) (fun _ pending => pending)

end Ids

section Attached
variable {machine : Machine} {s t : GbCport} {action : Action}

theorem Attached.frame (attached : Attached s)
    (response : ∀ op operation, t.refs.response op = some operation →
      s.refs.response op = some operation)
    (removed : ∀ op operation, s.removed op = some (.response operation) →
      t.removed op = some (.response operation)) : Attached t :=
  fun op operation link => removed op operation (attached op operation (response op operation link))

theorem Attached.moves (attached : Attached s) (queue : Queue s) (moves : Moves machine s action t) :
    Attached t := by
  cases moves with
  | stamp op hasCallback drawn =>
    refine attached.frame ?_ (fun _ _ gone => gone)
    intro other operation link
    change (gbOperationRef s.refs op).response other = _ at link
    unfold gbOperationRef at link
    split at link <;> exact link
  | cleanup op failed =>
    exact attached.frame (fun _ _ link => gbOperationUnref_response _ _ _ link)
      (fun _ _ gone => GbCport.removing_of_some queue _ gone)
  | destroy op may | sweepUnref op niter pc | matchUnref operation op pc | finish operation pc =>
    exact attached.frame (fun _ _ link => gbOperationUnref_response _ _ _ link) (fun _ _ gone => gone)
  | sweepUnlink op niter pc | matchUnlink operation op pc =>
    exact attached.frame (fun _ _ link => link)
      (fun _ _ gone => GbCport.removing_of_some queue _ gone)
  | matchAttach operation op pc =>
    intro other message link
    change update (gbOperationRef s.refs operation).response op (some operation) other = _ at link
    rw [update_apply] at link
    split at link
    · next same =>
        obtain rfl := Option.some.inj link
        rw [same]
        have owned := queue.owned op (by rw [pc]; rfl)
        rw [pc] at owned
        exact owned
    · apply attached other message
      unfold gbOperationRef at link
      split at link <;> exact link
  | _ => exact attached

end Attached

/-- What holds of the pending operations and the received messages in every state. -/
structure Pending (s : GbCport) : Prop where
  queue : Queue s
  inbox : Inbox s
  attached : Attached s

section Pending
variable {machine : Machine} {s t : GbCport} {action : Action}

theorem Pending.init : Pending gbInitCport where
  queue := Queue.init
  inbox := Inbox.init
  attached := fun _ _ link => by cases link

/-- A step of the cport keeps the queue, the inbox and the attached responses. -/
theorem Pending.moves (pending : Pending s) (linked : Linked s action)
    (moves : Moves machine s action t) : Pending t where
  queue := pending.queue.moves linked moves
  inbox := pending.inbox.moves pending.queue linked moves
  attached := pending.attached.moves pending.queue moves

end Pending

section Matching
variable (machine : Machine)

/-- The ids stay apart in every run with few draws. -/
theorem Ids.run {actions : List Action} {final : GbCport}
    (guarded : Guarded (step machine) (fun s action => Linked s action ∧ FewDraws s action) gbInitCport
      actions) (ran : Library.run (step machine) gbInitCport actions = some final) :
    Pending final ∧ Ids final := by
  apply run_invariant_of_guarded (fun s => Pending s ∧ Ids s) ⟨Pending.init, Ids.init⟩ guarded ran
  rintro s action t ⟨pending, ids⟩ guard stepped
  have moves := step_moves stepped
  exact ⟨pending.moves guard.1 moves, ids.moves guard.2 moves⟩

/-- As long as no failed send pulls an operation away from the worker and fewer than 65535 ids are drawn
while an operation stays pending, the pending operations have distinct ids other than zero, a response is
attached only to the pending operation with its id, and a callback runs at most once, for the response or
the timeout that took the operation off `tx_fifo`. -/
theorem gb_cport_matches_responses (actions : List Action) (final : GbCport)
    (guarded : Guarded (step machine) (fun s action => Linked s action ∧ FewDraws s action) gbInitCport
      actions) (ran : Library.run (step machine) gbInitCport actions = some final) :
    (∀ op ∈ final.txFifo, final.id op ≠ 0) ∧ (final.txFifo.map final.id).Nodup ∧
      (∀ op operation, final.refs.response op = some operation →
        final.removed op = some (.response operation) ∧ final.id op = final.id operation) ∧
      (∀ op, final.callbacks op ≤ 1) ∧
      ∀ op, 0 < final.callbacks op → op ∉ final.txFifo ∧
        (final.removed op = some .sweep ∨ ∃ operation, final.removed op = some (.response operation)) := by
  obtain ⟨⟨queue, inbox, attached⟩, ids⟩ := Ids.run machine guarded ran
  have queued : ∀ op ∈ final.txFifo, (final.phase op).queued = true := fun op pending =>
    ((queue.listed op).mp pending).1
  refine ⟨?_, ?_, ?_, ?_, ?_⟩
  · intro op pending
    apply ids.nonzero op (Phase.drew_of_queued (queued op pending))
    intro redraw
    have before := queued op pending
    rw [redraw] at before
    cases before
  · apply queue.nodup.map_on
    intro op pending other also same
    exact ids.eq_of_id_eq queue (.inr (.inr (.inr pending))) (.inr (.inr (.inr also))) same
  · intro op operation link
    have gone := attached op operation link
    exact ⟨gone, (inbox.matched op operation gone).2⟩
  · intro op
    rw [queue.called op]
    split <;> omega
  · intro op called
    rw [queue.called op] at called
    have answered : Removal.answers (final.removed op) = true := by
      by_contra unanswered
      simp [unanswered] at called
    constructor
    · intro pending
      rw [((queue.listed op).mp pending).2] at answered
      cases answered
    · cases removal : final.removed op with
      | none =>
        rw [removal] at answered
        cases answered
      | some cause =>
        cases cause with
        | sweep => exact .inl rfl
        | response operation => exact .inr ⟨operation, rfl⟩
        | failedSend =>
          rw [removal] at answered
          cases answered

/-- An operation is sent, and its response arrives twice. -/
def duplicateResponse : List Action :=
  [.create 0, .draw 0, .stamp 0 true, .enqueue 0, .transport 0 true,
    .receive 1 true 1, .receive 2 true 1,
    .work, .work, .work, .work, .work, .work, .work, .work, .work,
    .work, .work, .work, .work, .work]

/-- Only the first of two responses is attached, and the callback runs once. -/
theorem gb_cport_matches_responses_duplicate : ∃ final,
    Library.run (step .tsb) gbInitCport duplicateResponse = some final ∧
      final.refs.response 0 = some 1 ∧ final.callbacks 0 = 1 ∧ 0 ∉ final.txFifo := by
  have ran : (Library.run (step .tsb) gbInitCport duplicateResponse).any
      (fun final => final.refs.response 0 = some 1 ∧ final.callbacks 0 = 1) = true := by decide +kernel
  have guarded : Guarded (step .tsb) (fun s action => Linked s action ∧ FewDraws s action) gbInitCport
      duplicateResponse :=
    .mono (fun _ _ (strong : Linked _ _ ∧ _ + 1 < 65535) => ⟨strong.1, .of_draws strong.2⟩) (by decide +kernel)
  obtain ⟨final, run, facts⟩ := (Option.any_eq_true _ _).mp ran
  obtain ⟨link, called⟩ := of_decide_eq_true facts
  have matched := gb_cport_matches_responses .tsb duplicateResponse final guarded run
  exact ⟨final, run, link, called, (matched.2.2.2.2 0 (by omega)).1⟩

/-- Two operations time out, and the send of the second one fails while the worker is on its way to it. -/
def sweepAfterFailedSend : List Action :=
  [.create 0, .draw 0, .stamp 0 true, .enqueue 0, .transport 0 true,
    .create 1, .draw 1, .stamp 1 true, .enqueue 1, .tick 1001,
    .work, .work, .work, .work, .transport 1 false, .cleanup 1,
    .work, .work, .work, .work, .work, .work, .work, .work, .work, .work, .work, .work]

/-- The worker goes on from the unlinked operation, finds it again and runs its callback twice. -/
theorem gb_clean_timedout_operation_calls_twice : ∃ final,
    Library.run (step .tsb) gbInitCport sweepAfterFailedSend = some final ∧ final.draws = 2 ∧
      final.callbacks 1 = 2 := by
  have ran : (Library.run (step .tsb) gbInitCport sweepAfterFailedSend).any
      (fun final => final.draws = 2 ∧ final.callbacks 1 = 2) = true := by decide +kernel
  obtain ⟨final, run, facts⟩ := (Option.any_eq_true _ _).mp ran
  exact ⟨final, run, of_decide_eq_true facts⟩

end Matching

end Phabos.Greybus
