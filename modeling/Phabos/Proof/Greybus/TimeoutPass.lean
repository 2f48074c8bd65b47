import Phabos.Proof.Greybus.ResponseMatching

namespace Phabos.Greybus
open Library Function List Option

/-- The worker runs `gb_clean_timedout_operation`. -/
def Worker.sweeping : Worker → Bool
  | .sweepFirst | .sweepNext _ | .sweepTest _ _ | .sweepUnlink _ _ => true
  | .sweepCallback _ _ | .sweepUnref _ _ | .sweepUpdate => true
  | _ => false

theorem Walks.sweeping {machine : Machine} {s : GbCport} {before after : Worker}
    (walks : Walks machine s before after) : after.sweeping = before.sweeping := by
  cases walks <;> rfl

section Watchdog
variable {machine : Machine} {s t : GbCport} {action : Action}

/-- The watchdog is due for a pending operation, at most one timeout after it was queued or the watchdog
was updated. -/
def DueFor (machine : Machine) (s : GbCport) (op : OpId) : Prop :=
  ∃ expiry, s.timeoutWd = some expiry ∧ expiry ≤ max (s.queuedAt op) s.updatedAt + HZ machine

/-- The watchdog is never due later than one timeout from now. While operations are pending it is due,
unless a pass is queued or runs. -/
structure Watchdog (machine : Machine) (s : GbCport) : Prop where
  bounded : ∀ expiry, s.timeoutWd = some expiry → expiry ≤ s.now + HZ machine
  due : .timedout ∈ s.rxFifo ∨ s.worker.sweeping = true ∨ ∀ op ∈ s.txFifo, DueFor machine s op

theorem Watchdog.init : Watchdog machine gbInitCport where
  bounded := by simp [gbInitCport]
  due := by simp [gbInitCport]

theorem Watchdog.frame (watchdog : Watchdog machine s) (armed : t.timeoutWd = s.timeoutWd) (now : s.now ≤ t.now)
    (fifo : t.txFifo = s.txFifo) (queuedAt : t.queuedAt = s.queuedAt) (updatedAt : t.updatedAt = s.updatedAt)
    (rxFifo : .timedout ∈ s.rxFifo → .timedout ∈ t.rxFifo)
    (worker : s.worker.sweeping = true → t.worker.sweeping = true) : Watchdog machine t where
  bounded := by
    rw [armed]
    exact fun expiry due => Nat.le_trans (watchdog.bounded expiry due) (Nat.add_le_add_right now _)
  due := by
    unfold DueFor
    rw [armed, fifo, queuedAt, updatedAt]
    exact watchdog.due.imp rxFifo (Or.imp_left worker)

theorem Watchdog.update {pending : List OpId} (armed : t.timeoutWd = s.updated machine pending)
    (now : t.now = s.now) (fifo : t.txFifo = pending) (updatedAt : t.updatedAt = s.now) :
    Watchdog machine t where
  bounded := by
    intro expiry due
    rw [armed, GbCport.updated] at due
    rw [now]
    split at due
    · cases due
    · exact Nat.le_of_eq (some.inj due).symm
  due := by
    refine .inr (.inr fun op there => ⟨s.now + HZ machine, ?_, ?_⟩)
    · rw [armed, GbCport.updated, if_neg]
      rintro rfl
      rw [fifo] at there
      cases there
    · rw [updatedAt]
      exact Nat.add_le_add_right (Nat.le_max_right _ _) _

theorem Watchdog.enqueue (watchdog : Watchdog machine s) {op : OpId}
    (armed : t.timeoutWd = some (s.timeoutWd.getD (s.now + HZ machine))) (now : t.now = s.now)
    (fifo : t.txFifo = s.txFifo ++ [op]) (queuedAt : t.queuedAt = Function.update s.queuedAt op s.now)
    (updatedAt : t.updatedAt = s.updatedAt) (rxFifo : t.rxFifo = s.rxFifo)
    (worker : t.worker = s.worker) : Watchdog machine t := by
  have soon : s.timeoutWd.getD (s.now + HZ machine) ≤ s.now + HZ machine := by
    cases due : s.timeoutWd with
    | none => exact Nat.le_refl _
    | some expiry => exact watchdog.bounded expiry due
  constructor
  · intro expiry due
    rw [armed] at due
    rw [now, ← some.inj due]
    exact soon
  · rw [rxFifo, worker]
    refine watchdog.due.imp id (Or.imp id ?_)
    intro due other pending
    rw [fifo] at pending
    refine ⟨_, armed, ?_⟩
    rw [queuedAt, updatedAt, update_apply]
    by_cases same : other = op
    · rw [if_pos same]
      exact Nat.le_trans soon (Nat.add_le_add_right (Nat.le_max_left _ _) _)
    · have before : other ∈ s.txFifo := by
        simpa [same] using pending
      obtain ⟨expiry, set, near⟩ := due other before
      rw [if_neg same, set]
      exact near

/-- A move keeps the watchdog in time for the pending operations. -/
theorem Watchdog.moves (watchdog : Watchdog machine s) (moves : Moves machine s action t) :
    Watchdog machine t := by
  cases moves with
  | enqueue op stamped => exact watchdog.enqueue rfl rfl rfl rfl rfl rfl rfl
  | cleanup op failed => exact Watchdog.update rfl rfl rfl rfl
  | receive op isResponse id absent =>
    exact watchdog.frame rfl (Nat.le_refl _) rfl rfl rfl (mem_append_left _)
      fun sweeping => sweeping
  | tick ticks quiet => exact watchdog.frame rfl (Nat.le_add_right _ _) rfl rfl rfl id id
  | fire ticks fires =>
    refine ⟨?_, .inl ?_⟩
    · intro expiry due
      cases due
    · change RxItem.timedout ∈ (if _ then _ else _ : List RxItem)
      split
      · assumption
      · exact mem_append_right _ (mem_singleton_self _)
  | popTimedout rest idle first => exact ⟨watchdog.bounded, .inr (.inl rfl)⟩
  | popMessage operation isResponse rest idle first =>
    refine watchdog.frame rfl (Nat.le_refl _) rfl rfl rfl ?_ ?_
    · rw [first]
      exact fun queued => (mem_cons.mp queued).resolve_left (by simp)
    · rw [idle]
      exact fun sweeping => by cases sweeping
  | walk worker walks =>
    refine watchdog.frame rfl (Nat.le_refl _) rfl rfl rfl id ?_
    intro sweeping
    exact walks.sweeping.trans sweeping
  | sweepUnlink op niter pc | sweepCallback op niter pc | sweepUnref op niter pc =>
    exact ⟨watchdog.bounded, .inr (.inl rfl)⟩
  | sweepUpdate pc | matchUnlink operation op pc => exact Watchdog.update rfl rfl rfl rfl
  | matchAttach operation op pc | matchCallback operation op pc | matchUnref operation op pc | finish operation pc =>
    refine watchdog.frame rfl (Nat.le_refl _) rfl rfl rfl id ?_
    rw [pc]
    exact id
  | _ => exact watchdog.frame rfl (Nat.le_refl _) rfl rfl rfl id id

end Watchdog

section Pass
variable {machine : Machine} {s t : GbCport} {action : Action} {op : OpId} {budget : ℕ}

/-- The pass has an operation before its next cursor, at five steps for each one in between. -/
def Behind (nodes : List OpId) (cursor : Option OpId) (op : OpId) (budget : ℕ) : Prop :=
  ∃ node steps, cursor = some node ∧ 5 * steps + 4 ≤ budget ∧
    (node ∈ nodes → Cursor.Within nodes (some node) op steps)

/-- The worker will have run the callback of a pending operation after a number of steps. -/
def Worker.Reaches (nodes : List OpId) (op : OpId) : Worker → ℕ → Prop
  | .sweepFirst, budget => ∃ steps, 5 * steps + 5 ≤ budget ∧ Cursor.Within nodes nodes.head? op steps
  | .sweepNext iter, budget => Behind nodes iter op budget
  | .sweepTest iter niter, budget =>
    ∃ node, iter = some node ∧ (node = op ∧ 3 ≤ budget ∨ Behind nodes niter op (budget - 4))
  | .sweepUnlink node niter, budget => node = op ∧ 2 ≤ budget ∨ Behind nodes niter op (budget - 3)
  | .sweepCallback _ niter, budget => Behind nodes niter op (budget - 2)
  | .sweepUnref _ niter, budget => Behind nodes niter op (budget - 1)
  | _, _ => False

/-- The pass will handle an overdue operation in a number of steps, or has removed it and its callback is
run or about to run, or a failed send has removed it. -/
def Overdue (machine : Machine) (op : OpId) (budget : ℕ) (s : GbCport) : Prop :=
  (op ∈ s.txFifo ∧ s.time op + HZ machine < s.now ∧ s.worker.Reaches s.txFifo op budget) ∨
    (s.removed op = some .sweep ∧ (s.worker.calling = some op → 1 ≤ budget)) ∨
      s.removed op = some .failedSend

variable {nodes : List OpId} {cursor : Option OpId}

theorem Behind.mono {more : ℕ} (behind : Behind nodes cursor op budget) (le : budget ≤ more) :
    Behind nodes cursor op more := by
  obtain ⟨node, steps, here, near, within⟩ := behind
  exact ⟨node, steps, here, Nat.le_trans near le, within⟩

theorem Behind.erase {gone : OpId} (behind : Behind nodes cursor op budget) (distinct : nodes.Nodup) (kept : gone ≠ op) :
    Behind (nodes.erase gone) cursor op budget := by
  obtain ⟨node, steps, here, near, within⟩ := behind
  refine ⟨node, steps, here, near, fun listed => ?_⟩
  obtain ⟨differs, before⟩ := distinct.mem_erase_iff.mp listed
  exact (within before).erase distinct (Ne.symm differs) kept

theorem Behind.append {new : OpId} (behind : Behind nodes cursor op budget) (fresh : ∀ node ∈ cursor, node ≠ new) :
    Behind (nodes ++ [new]) cursor op budget := by
  obtain ⟨node, steps, here, near, within⟩ := behind
  refine ⟨node, steps, here, near, fun listed => ?_⟩
  have before : node ∈ nodes := by
    simpa [fresh node here] using listed
  exact (within before).append before

theorem Worker.Reaches.erase {worker : Worker} {gone : OpId}
    (reaches : worker.Reaches nodes op budget) (distinct : nodes.Nodup) (kept : gone ≠ op) :
    worker.Reaches (nodes.erase gone) op budget := by
  cases worker with
  | sweepFirst =>
    obtain ⟨steps, near, within⟩ := reaches
    exact ⟨steps, near, within.erase_head kept⟩
  | sweepNext iter => exact Behind.erase reaches distinct kept
  | sweepTest iter niter =>
    obtain ⟨node, here, found | behind⟩ := reaches
    · exact ⟨node, here, .inl found⟩
    · exact ⟨node, here, .inr (behind.erase distinct kept)⟩
  | sweepUnlink node niter => exact reaches.imp_right fun behind => behind.erase distinct kept
  | sweepCallback node niter | sweepUnref node niter => exact Behind.erase reaches distinct kept
  | _ => exact reaches

theorem Worker.Reaches.append {worker : Worker} {new : OpId}
    (reaches : worker.Reaches nodes op budget) (fresh : ∀ node ∈ worker.nodes, node ≠ new) :
    worker.Reaches (nodes ++ [new]) op budget := by
  cases worker with
  | sweepFirst =>
    obtain ⟨steps, near, within⟩ := reaches
    exact ⟨steps, near, within.append_head⟩
  | sweepNext iter =>
    exact Behind.append reaches fun node here => fresh node (mem_toList.mpr here)
  | sweepTest iter niter =>
    obtain ⟨node, here, found | behind⟩ := reaches
    · exact ⟨node, here, .inl found⟩
    · refine ⟨node, here, .inr (behind.append fun next here => fresh next ?_)⟩
      exact mem_append_right _ (mem_toList.mpr here)
  | sweepUnlink node niter =>
    refine reaches.imp_right fun behind => behind.append fun next here => fresh next ?_
    exact mem_cons_of_mem _ (mem_toList.mpr here)
  | sweepCallback node niter | sweepUnref node niter =>
    refine Behind.append reaches fun next here => fresh next ?_
    exact mem_cons_of_mem _ (mem_toList.mpr here)
  | _ => exact reaches

theorem Overdue.frame (overdue : Overdue machine op budget s) (queue : Queue s)
    (fifo : t.txFifo = s.txFifo) (worker : t.worker = s.worker) (now : s.now ≤ t.now)
    (time : (s.phase op).queued = true → t.time op = s.time op) (removed : t.removed = s.removed) :
    Overdue machine op budget t := by
  rcases overdue with ⟨pending, late, reaches⟩ | removal
  · refine .inl ⟨by rw [fifo]; exact pending, ?_, by rw [fifo, worker]; exact reaches⟩
    rw [time ((queue.listed op).mp pending).1]
    exact Nat.lt_of_lt_of_le late now
  · rw [← removed, ← worker] at removal
    exact .inr removal

theorem Overdue.tasks (overdue : Overdue machine op budget s) (pending : Pending s)
    (linked : Linked s action) (task : action ≠ .work) (moves : Moves machine s action t) :
    Overdue machine op budget t := by
  have queue := pending.queue
  cases moves with
  | stamp other hasCallback drawn =>
    refine overdue.frame queue rfl rfl (Nat.le_refl _) ?_ rfl
    intro queued
    have differs : op ≠ other := by
      rintro rfl
      rw [drawn] at queued
      cases queued
    exact update_of_ne differs _ _
  | enqueue other stamped =>
    rcases overdue with ⟨there, late, reaches⟩ | removal
    · refine .inl ⟨mem_append_left _ there, late, reaches.append ?_⟩
      rintro node known rfl
      have queued := pending.inbox.nodes node known
      rw [stamped] at queued
      cases queued
    · exact .inr removal
  | cleanup other failed =>
    rcases overdue with ⟨there, late, reaches⟩ | ⟨swept, calling⟩ | failure
    · by_cases same : other = op
      · subst same
        refine .inr (.inr ?_)
        change s.removing other .failedSend other = _
        rw [GbCport.removing, if_pos there, update_self]
      · refine .inl ⟨?_, late, reaches.erase queue.nodup same⟩
        exact (mem_erase_of_ne (Ne.symm same)).mpr there
    · exact .inr (.inl ⟨GbCport.removing_of_some queue _ swept, calling⟩)
    · exact .inr (.inr (GbCport.removing_of_some queue _ failure))
  | tick ticks quiet | fire ticks fires => exact overdue.frame queue rfl rfl (Nat.le_add_right _ _) (fun _ => rfl) rfl
  | create _ _ | sendUnanswered _ _ _ | drawZero _ _ _ _ | draw _ _ | otherDraw | transport _ _ _ | destroy _ _
  | receive _ _ _ _ => exact overdue.frame queue rfl rfl (Nat.le_refl _) (fun _ => rfl) rfl
  | _ => exact absurd rfl task

theorem Walks.reaches {before after : Worker} (walks : Walks machine s before after) (queue : Queue s)
    (linked : ∀ node ∈ before.follows, node ∈ s.txFifo) (late : s.time op + HZ machine < s.now)
    (reaches : before.Reaches s.txFifo op budget) : after.Reaches s.txFifo op (budget - 1) := by
  cases walks with
  | sweepFirst =>
    obtain ⟨steps, near, within⟩ := reaches
    cases first : s.txFifo.head? with
    | none =>
      rw [first] at within
      obtain ⟨before, after, parts, -⟩ := within
      exact absurd parts (by simp)
    | some node =>
      refine ⟨node, steps, rfl, by omega, fun _ => ?_⟩
      rw [first] at within
      exact within
  | sweepNext iter =>
    obtain ⟨node, steps, rfl, near, within⟩ := reaches
    have listed : node ∈ s.txFifo := linked node rfl
    refine ⟨node, rfl, ?_⟩
    rcases (within listed).next queue.nodup listed with same | ⟨more, within⟩
    · exact .inl ⟨same.symm, by omega⟩
    · refine .inr ?_
      cases following : Cursor.next s.txFifo (some node) with
      | none =>
        rw [following] at within
        obtain ⟨before, after, parts, -⟩ := within
        exact absurd parts (by simp)
      | some next =>
        rw [following] at within
        exact ⟨next, steps - 1, rfl, by omega, fun _ => within⟩
  | sweepEnd niter =>
    obtain ⟨node, here, -⟩ := reaches
    cases here
  | sweepExpired node niter expired =>
    obtain ⟨_, ⟨⟩, ⟨same, near⟩ | behind⟩ := reaches
    · exact .inl ⟨same, by omega⟩
    · exact .inr (behind.mono (by omega))
  | sweepKept node niter kept =>
    obtain ⟨_, ⟨⟩, ⟨rfl, near⟩ | behind⟩ := reaches
    · omega
    · exact Behind.mono behind (by omega)
  | _ => exact absurd reaches id

theorem Overdue.leave {left : ℕ} (overdue : Overdue machine op budget s)
    (outside : ¬s.worker.Reaches s.txFifo op budget)
    (removed : ∀ cause, s.removed op = some cause → t.removed op = some cause)
    (called : s.removed op = some .sweep → t.worker.calling ≠ some op) : Overdue machine op left t := by
  rcases overdue with ⟨-, -, reaches⟩ | ⟨swept, -⟩ | failure
  · exact absurd reaches outside
  · exact .inr (.inl ⟨removed _ swept, fun calling => absurd calling (called swept)⟩)
  · exact .inr (.inr (removed _ failure))

theorem Overdue.advance {left : ℕ} (overdue : Overdue machine op budget s) (fifo : t.txFifo = s.txFifo)
    (now : t.now = s.now) (time : t.time = s.time) (removed : t.removed = s.removed)
    (reaches : s.time op + HZ machine < s.now → s.worker.Reaches s.txFifo op budget →
      t.worker.Reaches s.txFifo op left)
    (called : t.worker.calling = none) : Overdue machine op left t := by
  rcases overdue with ⟨there, late, before⟩ | ⟨swept, -⟩ | failure
  · refine .inl ⟨by rw [fifo]; exact there, by rw [time, now]; exact late, ?_⟩
    rw [fifo]
    exact reaches late before
  · refine .inr (.inl ⟨by rw [removed]; exact swept, fun calling => ?_⟩)
    rw [called] at calling
    cases calling
  · exact .inr (.inr (by rw [removed]; exact failure))

theorem Overdue.work (overdue : Overdue machine op budget s) (pending : Pending s)
    (linked : Linked s .work) (moves : Moves machine s .work t) :
    Overdue machine op (budget - 1) t := by
  have queue := pending.queue
  -- An operation that is off `tx_fifo` is not the one that the worker unlinks.
  have unlinks : ∀ node, s.worker.follows = some node → s.removed op = some .sweep →
      some node ≠ some op := by
    rintro node follows swept same
    rw [some.inj same] at follows
    rw [((queue.listed op).mp (linked op follows)).2] at swept
    cases swept
  cases moves with
  | popTimedout rest idle first =>
    exact overdue.leave (by rw [idle]; exact id) (fun _ removed => removed) (fun _ calling => by cases calling)
  | popMessage operation isResponse rest idle first =>
    refine overdue.leave (by rw [idle]; exact id) (fun _ removed => removed) fun _ calling => ?_
    cases isResponse <;> cases calling
  | walk worker walks =>
    exact overdue.advance rfl rfl rfl rfl (walks.reaches queue linked) walks.owned.2.2.2
  | sweepUnlink node niter pc =>
    have listed : node ∈ s.txFifo := linked node (by rw [pc]; rfl)
    rcases overdue with ⟨there, late, reaches⟩ | ⟨swept, -⟩ | failure
    · rw [pc] at reaches
      by_cases same : node = op
      · subst same
        refine .inr (.inl ⟨?_, fun _ => ?_⟩)
        · change s.removing node .sweep node = _
          rw [GbCport.removing, if_pos there, update_self]
        · rcases reaches with ⟨-, near⟩ | ⟨_, _, _, near, _⟩
          · omega
          · omega
      · have behind := (reaches.resolve_left fun found => same found.1).erase queue.nodup same
        exact .inl ⟨(mem_erase_of_ne (Ne.symm same)).mpr there, late, behind.mono (by omega)⟩
    · refine .inr (.inl ⟨GbCport.removing_of_some queue _ swept, fun calling => ?_⟩)
      exact absurd calling (unlinks node (by rw [pc]; rfl) swept)
    · exact .inr (.inr (GbCport.removing_of_some queue _ failure))
  | sweepCallback node niter pc =>
    refine overdue.advance rfl rfl rfl rfl (fun _ reaches => ?_) rfl
    rw [pc] at reaches
    exact Behind.mono reaches (by omega)
  | sweepUnref node niter pc =>
    refine overdue.advance rfl rfl rfl rfl (fun _ reaches => ?_) rfl
    rw [pc] at reaches
    exact reaches
  | sweepUpdate pc | matchCallback operation node pc | matchUnref operation node pc | finish operation pc =>
    exact overdue.leave (by rw [pc]; exact id) (fun _ removed => removed) (fun _ calling => by cases calling)
  | matchUnlink operation node pc =>
    exact overdue.leave (by rw [pc]; exact id) (fun _ removed => GbCport.removing_of_some queue _ removed)
      (unlinks node (by rw [pc]; rfl))
  | matchAttach operation node pc =>
    refine overdue.leave (by rw [pc]; exact id) (fun _ removed => removed) fun swept calling => ?_
    have cause := queue.owned op (by rw [pc]; exact calling)
    rw [swept, pc] at cause
    cases cause

end Pass

section Timeouts
variable (machine : Machine) {actions : List Action}

theorem Watchdog.run {final : GbCport} (ran : Library.run (step machine) gbInitCport actions = some final) :
    Watchdog machine final :=
  run_invariant (Watchdog machine) Watchdog.init ran fun watchdog stepped => watchdog.moves (step_moves stepped)

theorem Pending.run {final : GbCport} (guarded : Guarded (step machine) Linked gbInitCport actions)
    (ran : Library.run (step machine) gbInitCport actions = some final) : Pending final :=
  run_invariant_of_guarded Pending Pending.init guarded ran fun pending linked stepped =>
    pending.moves linked (step_moves stepped)

/-- A pending operation that is late is overdue when a pass begins. -/
theorem Overdue.start {s : GbCport} {op : OpId} (first : s.worker = .sweepFirst) (pending : op ∈ s.txFifo)
    (late : s.time op + HZ machine < s.now) : Overdue machine op (5 * s.txFifo.length) s := by
  refine .inl ⟨pending, late, ?_⟩
  rw [first]
  have positive := length_pos_of_mem pending
  exact ⟨s.txFifo.length - 1, by omega, Cursor.Within.head pending⟩

/-- Each step of the worker brings an overdue operation nearer to its callback. -/
theorem Overdue.run {s final : GbCport} {op : OpId} {budget : ℕ} (pending : Pending s)
    (overdue : Overdue machine op budget s) (guarded : Guarded (step machine) Linked s actions)
    (ran : Library.run (step machine) s actions = some final) :
    Pending final ∧ Overdue machine op (budget - actions.count .work) final := by
  apply run_history_of_guarded (fun past s => Pending s ∧ Overdue machine op (budget - past.count .work) s)
    ⟨pending, overdue⟩ guarded ran
  rintro past s action t ⟨pending, overdue⟩ linked stepped
  have moves := step_moves stepped
  refine ⟨pending.moves linked moves, ?_⟩
  rw [count_append, count_singleton, ← Nat.sub_sub]
  by_cases work : action = .work
  · subst work
    exact overdue.work pending linked moves
  · rw [beq_false_of_ne work]
    exact overdue.tasks pending linked work moves

/-- The worker is not blocked within a pass. -/
theorem gbPendingMessageWorker_enabled {s : GbCport} (busy : s.worker ≠ .idle) :
    ∃ t, gbPendingMessageWorker machine s = some t := by
  unfold gbPendingMessageWorker
  cases pc : s.worker with
  | idle => exact absurd pc busy
  | sweepTest iter niter | matchTest operation iter niter =>
    cases iter with
    | none => exact ⟨_, rfl⟩
    | some op =>
      dsimp only
      split <;> exact ⟨_, rfl⟩
  | _ => exact ⟨_, rfl⟩

/-- While an operation is pending and no pass is queued or runs, the watchdog is due at most one timeout
after the operation was queued or the watchdog was last updated. As long as no failed send pulls an
operation away from the worker, a pass takes every operation that is pending for more than the timeout off
`tx_fifo` and runs its callback, unless a failed send has removed it. It does so within five steps for each
pending operation, and no step is blocked. -/
theorem gb_cport_bounds_timeouts (actions : List Action) (s : GbCport)
    (ran : Library.run (step machine) gbInitCport actions = some s) :
    (∀ op ∈ s.txFifo, .timedout ∈ s.rxFifo ∨ s.worker.sweeping = true ∨
      ∃ expiry, s.timeoutWd = some expiry ∧
        expiry ≤ max (s.queuedAt op) s.updatedAt + watchdogTicks machine TIMEOUT_IN_MS) ∧
    (s.worker.sweeping = true → ∃ next, step machine s .work = some next) ∧
    (s.worker = .sweepFirst → Guarded (step machine) Linked gbInitCport actions →
      ∀ pass final, Guarded (step machine) Linked s pass → Library.run (step machine) s pass = some final →
        5 * s.txFifo.length ≤ pass.count .work →
        ∀ op ∈ s.txFifo, s.time op + watchdogTicks machine TIMEOUT_IN_MS < s.now →
          op ∉ final.txFifo ∧ (final.removed op = some .failedSend ∨
            final.removed op = some .sweep ∧ s.callbacks op = 0 ∧
              final.callbacks op = if final.hasCallback op = true then 1 else 0)) := by
  rw [watchdogTicks_timeout]
  refine ⟨?_, ?_, ?_⟩
  · intro op pending
    exact (Watchdog.run machine ran).due.imp id (Or.imp id fun due => due op pending)
  · intro sweeping
    apply gbPendingMessageWorker_enabled
    intro idle
    rw [idle] at sweeping
    cases sweeping
  · intro first guarded pass final later onwards enough op there late
    have before := Pending.run machine guarded ran
    obtain ⟨⟨queue, -, -⟩, overdue⟩ :=
      Overdue.run machine before (Overdue.start machine first there late) later onwards
    rw [Nat.sub_eq_zero_of_le enough] at overdue
    have gone : ∀ cause, final.removed op = some cause → op ∉ final.txFifo := by
      intro cause removed pending
      rw [((queue.listed op).mp pending).2] at removed
      cases removed
    rcases overdue with ⟨-, -, reaches⟩ | ⟨swept, calling⟩ | failure
    · exfalso
      cases pc : final.worker <;> rw [pc] at reaches <;> simp_all [Worker.Reaches, Behind]
    · refine ⟨gone _ swept, .inr ⟨swept, ?_, ?_⟩⟩
      · rw [before.queue.called op, if_neg]
        intro answered
        rw [((before.queue.listed op).mp there).2] at answered
        cases answered.1
      · have uncalled : final.worker.calling ≠ some op := fun calls => by
          have left := calling calls
          omega
        rw [queue.called op, swept]
        simp [Removal.answers, uncalled]
    · exact ⟨gone _ failure, .inl failure⟩

/-- An operation is sent, and its pass begins one tick after the timeout. -/
def startOfPass : List Action :=
  [.create 0, .draw 0, .stamp 0 true, .enqueue 0, .transport 0 true, .tick 1001, .work]

/-- The pass runs the callback of the operation. -/
theorem gb_cport_bounds_timeouts_one : ∃ s final,
    Library.run (step .tsb) gbInitCport startOfPass = some s ∧ 0 ∈ s.txFifo ∧
      Library.run (step .tsb) s (List.replicate 5 .work) = some final ∧ 0 ∉ final.txFifo := by
  have ran : (Library.run (step .tsb) gbInitCport startOfPass).any (fun s =>
      s.txFifo = [0] ∧ s.worker = .sweepFirst ∧ s.time 0 = 0 ∧ s.now = 1001 ∧
        Guarded (step .tsb) Linked s (List.replicate 5 .work) ∧
          (Library.run (step .tsb) s (List.replicate 5 .work)).isSome = true) = true := by decide +kernel
  have guarded : Guarded (step .tsb) Linked gbInitCport startOfPass := by
    decide +kernel
  obtain ⟨s, run, facts⟩ := (any_eq_true _ _).mp ran
  obtain ⟨fifo, first, time, now, checked, ends⟩ := of_decide_eq_true facts
  obtain ⟨final, later⟩ := isSome_iff_exists.mp ends
  have there : 0 ∈ s.txFifo := by
    rw [fifo]
    exact List.mem_singleton_self _
  have handled := (gb_cport_bounds_timeouts .tsb startOfPass s run).2.2 first guarded
    (List.replicate 5 .work) final checked later
    (by rw [fifo]; decide) 0 there (by rw [time, now]; decide)
  exact ⟨s, final, run, there, later, handled.1⟩

/-- Two operations are sent at the same time, and the second one gets its response shortly before the
timeout of the first one. -/
def responseBeforeTimeout : List Action :=
  [.create 0, .draw 0, .stamp 0 true, .enqueue 0, .transport 0 true,
    .create 1, .draw 1, .stamp 1 true, .enqueue 1, .transport 1 true, .tick 999, .receive 2 true 2,
    .work, .work, .work, .work, .work, .work, .work, .work, .work, .work, .work]

/-- The response puts off the timeout of the other operation by almost a second. -/
theorem gb_watchdog_update_puts_off_timeout : ∃ final,
    Library.run (step .tsb) gbInitCport responseBeforeTimeout = some final ∧ final.txFifo = [0] ∧
      final.rxFifo = [] ∧ final.worker = .idle ∧ final.timeoutWd = some 1999 ∧
      final.time 0 + watchdogTicks .tsb TIMEOUT_IN_MS = 1000 := by
  have ran : (Library.run (step .tsb) gbInitCport responseBeforeTimeout).any (fun final =>
      final.txFifo = [0] ∧ final.rxFifo = [] ∧ final.worker = .idle ∧ final.timeoutWd = some 1999 ∧
        final.time 0 + watchdogTicks .tsb TIMEOUT_IN_MS = 1000) = true := by decide +kernel
  obtain ⟨final, run, facts⟩ := (any_eq_true _ _).mp ran
  exact ⟨final, run, of_decide_eq_true facts⟩

end Timeouts

end Phabos.Greybus
