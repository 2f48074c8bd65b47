import Phabos.Proof.Lib.WorkDelivery

namespace Phabos.Workqueue
open Library List

/-- The permit of the empty semaphore is in the semaphore, with a waiter, taken for the items that are counted, or on
its way back from the thread. A call that has still to take it has counted its item already. -/
structure Permitted (m : Queue) : Prop where
  single : m.locking.length ≤ 1
  permit : m.emptySemaphore + m.waiting + (if 0 < m.workCount then 1 else 0) + (if m.thread = .unlock then 1 else 0) =
    1 + m.locking.length

section Permitted
variable {m next : Queue}

theorem Delivery.length_le_workCount (delivery : Delivery m) :
    (m.adding.length : Int) + m.locking.length + m.thread.held.length ≤ m.workCount := by
  obtain ⟨same, called, count⟩ := delivery.counted
  have counted := same.length_eq
  have line := delivery.lined.same.length_eq
  unfold Queue.line at line
  rw [called] at line
  simp only [length_append] at counted line
  omega

theorem Delivery.workCount_pos {done : Option ℕ} (delivery : Delivery m) (here : m.thread = .count done) :
    0 < m.workCount := by
  have less := delivery.length_le_workCount
  have scanning := delivery.scanning
  rw [here] at less scanning
  obtain ⟨work, rfl⟩ := Option.ne_none_iff_exists'.mp scanning
  change (m.adding.length : Int) + m.locking.length + 1 ≤ m.workCount at less
  omega

theorem Permitted.proceed {work : ℕ} (permitted : Permitted m) (delivery : Delivery m)
    (stepped : proceed m work = some next) : Permitted next := by
  obtain ⟨single, permit⟩ := permitted
  have less := delivery.length_le_workCount
  unfold Workqueue.proceed at stepped
  split at stepped
  · obtain rfl := Option.some.inj stepped
    unfold countWork
    split
    · rename_i first
      have none : m.workCount = 0 := by omega
      rw [none, if_neg (Int.lt_irrefl 0)] at permit
      refine ⟨?_, ?_⟩
      · simp only [length_append, length_singleton]
        omega
      · dsimp only
        rw [if_pos (by omega), length_append, length_singleton]
        omega
    · rename_i more
      rw [if_pos (by omega)] at permit
      refine ⟨single, ?_⟩
      dsimp only
      rw [if_pos (by omega)]
      exact permit
  split at stepped
  · rename_i there
    obtain ⟨some, stepped⟩ := Option.ite_none_left_eq_some.mp stepped
    obtain rfl := Option.some.inj stepped
    have fewer := length_erase_of_mem there
    have positive := length_pos_of_mem there
    refine ⟨?_, ?_⟩
    · dsimp only
      omega
    · dsimp only
      omega
  split at stepped
  · obtain rfl := Option.some.inj stepped
    exact ⟨single, permit⟩
  split at stepped
  · obtain rfl := Option.some.inj stepped
    unfold startWork
    split
    · exact ⟨single, permit⟩
    · exact ⟨single, permit⟩
  · cases stepped

theorem Permitted.workqueueThread (permitted : Permitted m) (delivery : Delivery m)
    (stepped : workqueueThread m = some next) : Permitted next := by
  obtain ⟨single, permit⟩ := permitted
  unfold Workqueue.workqueueThread at stepped
  cases here : m.thread with
  | lock =>
    simp only [here] at stepped
    split at stepped
    · cases stepped
    · obtain rfl := Option.some.inj stepped
      rw [here] at permit
      exact ⟨single, permit⟩
  | test iter niter =>
    rw [here] at permit
    cases iter with
    | none => exact absurd here (delivery.found niter)
    | some work =>
      simp only [here] at stepped
      split at stepped
      all_goals obtain rfl := Option.some.inj stepped
      · exact ⟨single, permit⟩
      · exact ⟨single, permit⟩
  | count done =>
    have positive := delivery.workCount_pos here
    simp only [here] at stepped
    rw [here, if_pos positive, if_neg nofun] at permit
    split at stepped
    all_goals obtain rfl := Option.some.inj stepped
    · rename_i last
      refine ⟨single, ?_⟩
      dsimp only
      rw [if_neg (by omega), if_pos rfl]
      omega
    · rename_i more
      refine ⟨single, ?_⟩
      dsimp only
      rw [if_pos (by omega), if_neg nofun]
      exact permit
  | unlock =>
    simp only [here] at stepped
    obtain rfl := Option.some.inj stepped
    rw [here, if_pos rfl] at permit
    refine ⟨single, ?_⟩
    dsimp only
    rw [if_neg (c := Place.lock = .unlock) nofun]
    omega
  | first | next iter | unlink work | call work | release work =>
    simp only [here] at stepped
    obtain rfl := Option.some.inj stepped
    rw [here] at permit
    exact ⟨single, permit⟩

/-- A step keeps the permits of the semaphore. -/
theorem Permitted.step {action : Action} (permitted : Permitted m) (delivery : Delivery m)
    (stepped : step m action = some next) : Permitted next := by
  cases action with
  | queue entry | schedule entry delay =>
    obtain rfl := Option.some.inj stepped
    exact ⟨permitted.single, permitted.permit⟩
  | proceed work => exact permitted.proceed delivery stepped
  | expire work =>
    simp only [Workqueue.step] at stepped
    split at stepped
    · obtain rfl := Option.some.inj stepped
      exact ⟨permitted.single, permitted.permit⟩
    · cases stepped
  | thread => exact permitted.workqueueThread delivery stepped
  | waitEmpty | waitDone =>
    have permit := permitted.permit
    simp only [Workqueue.step] at stepped
    split at stepped
    · cases stepped
    · obtain rfl := Option.some.inj stepped
      refine ⟨permitted.single, ?_⟩
      dsimp only
      omega

theorem Permitted.of_run {actions : List Action} (ran : run Workqueue.step workqueueCreate actions = some m) :
    Delivery m ∧ Permitted m :=
  run_invariant (fun m => Delivery m ∧ Permitted m) ⟨Delivery.workqueueCreate, Nat.zero_le _, rfl⟩ ran
    fun both stepped => ⟨both.1.step stepped, both.2.step both.1 stepped⟩

/-- A work that was counted stays counted. -/
theorem counted_subset {actions : List Action} (delivery : Delivery m) (ran : run step m actions = some next) :
    m.counted ⊆ next.counted := by
  refine (run_invariant (fun later => Delivery later ∧ m.counted ⊆ later.counted) ⟨delivery, List.Subset.refl _⟩ ran
    fun both stepped => ⟨both.1.step stepped, List.Subset.trans both.2 ?_⟩).2
  cases step_cases both.1.found stepped with
  | countsFirst work there | countsMore work there => exact subset_append_left _ _
  | _ => exact List.Subset.refl _

/-- The empty semaphore has one permit at most, and has it only when no item is left, unless a call has counted its
item and not yet added it. What was counted before a call of `workqueue_wait_empty` is done when it gets the permit. -/
theorem workqueue_wait_empty_sound (before during : List Action) (called m : Queue)
    (ran : run step workqueueCreate before = some called) (waited : run step called during = some m) :
    m.emptySemaphore ≤ 1 ∧
      (m.locking = [] ∧ m.adding = [] →
        (m.emptySemaphore ≠ 0 → m.workCount = 0) ∧
          ∀ next, step m .waitEmpty = some next → ∀ work ∈ called.counted, work ∈ m.finished) := by
  have whole : run step workqueueCreate (before ++ during) = some m := by
    rw [run_append, ran]
    exact waited
  obtain ⟨delivery, permitted⟩ := Permitted.of_run whole
  obtain ⟨single, permit⟩ := permitted
  have counted := delivery.length_le_workCount
  constructor
  · by_cases locking : m.locking = []
    · rw [locking] at permit
      change _ = 1 at permit
      omega
    · have positive := length_pos_iff.mpr locking
      rw [if_pos (by omega)] at permit
      omega
  · rintro ⟨locking, -⟩
    rw [locking] at permit counted
    have empty (available : m.emptySemaphore ≠ 0) : m.workCount = 0 := by
      split at permit
      · change _ = 1 at permit
        omega
      · simp only [length_nil] at counted
        omega
    refine ⟨empty, fun next stepped work there => ?_⟩
    have available : m.emptySemaphore ≠ 0 := by
      intro none
      simp only [step, if_pos none] at stepped
      cases stepped
    have unfinished := delivery.length_unfinished
    rw [empty available] at unfinished
    have all := filter_eq_nil_iff.mp (length_eq_zero_iff.mp (Int.natCast_eq_zero.mp unfinished)) work
      (counted_subset (Permitted.of_run ran).1 waited there)
    rwa [decide_eq_true_eq, not_not] at all

end Permitted

/-- A waiter waits while the callback of the first work item submits another one. -/
theorem workqueue_wait_empty_sound_resubmit :
    ∃ called m next,
      run step workqueueCreate [.queue ⟨4096, 0⟩, .proceed 0, .proceed 0, .proceed 0] = some called ∧
      run step called ([.proceed 0] ++ replicate 6 .thread ++ [.queue ⟨8192, 1⟩] ++
        replicate 3 (.proceed 1) ++ replicate 11 .thread) = some m ∧
      step m .waitEmpty = some next ∧ called.counted = [0] ∧ 0 ∈ m.finished := by
  refine ⟨_, _, _, rfl, rfl, rfl, rfl, ?_⟩
  have sound := workqueue_wait_empty_sound [.queue ⟨4096, 0⟩, .proceed 0, .proceed 0, .proceed 0]
    ([.proceed 0] ++ replicate 6 .thread ++ [.queue ⟨8192, 1⟩] ++ replicate 3 (.proceed 1) ++
      replicate 11 .thread) _ _ rfl rfl
  exact (sound.2 ⟨rfl, rfl⟩).2 _ rfl 0 mem_cons_self

end Phabos.Workqueue
