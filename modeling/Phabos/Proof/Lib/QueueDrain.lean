import Mathlib.Data.Prod.Lex
import Phabos.Proof.Lib.WorkDelivery

namespace Phabos.Workqueue
open Library List Option

/-- How far the thread is from its next wait -/
def Queue.ahead (m : Queue) : ℕ :=
  match m.thread with
  | .lock => 0
  | .unlock => 1
  | .count _ => 2
  | .release _ => 3
  | .call _ => 4
  | .unlink _ => 5
  | .next iter => 2 * (Cursor.onwards m.list iter).length + 6
  | .test _ niter => 2 * (Cursor.onwards m.list niter).length + 7
  | .first => 2 * m.list.length + 7

section Thread
variable {m next : Queue}

/-- Each step of the thread takes a permit or brings it closer to its next wait. -/
theorem thread_ahead (delivery : Delivery m) (stepped : workqueueThread m = some next) :
    toLex (next.semaphore, next.ahead) < toLex (m.semaphore, m.ahead) := by
  apply Prod.Lex.toLex_lt_toLex.mpr
  have scanning := delivery.scanning
  unfold workqueueThread at stepped
  cases here : m.thread with rw [here] at stepped scanning
  | lock =>
    obtain ⟨permit, same⟩ := ite_none_left_eq_some.mp stepped
    obtain rfl := some.inj same
    exact .inl (Nat.sub_one_lt permit)
  | next iter =>
    obtain rfl := some.inj stepped
    obtain ⟨before, rest, parts, -, cursor, work, there, -⟩ := scanning
    cases rest with
    | nil => cases there
    | cons first rest =>
      obtain rfl : iter = some first := cursor
      have listed : first ∈ m.list := parts ▸ mem_append_right _ mem_cons_self
      have passed := congrArg length (Cursor.onwards_next delivery.list_distinct listed)
      rw [length_cons] at passed
      refine .inr ⟨rfl, ?_⟩
      simp only [Queue.ahead, here]
      omega
  | first =>
    obtain rfl := some.inj stepped
    exact .inr ⟨rfl, by simp [Queue.ahead, here, Cursor.onwards_head]⟩
  | test iter niter =>
    cases iter with
    | none => exact (delivery.found niter here).elim
    | some work =>
      dsimp only at stepped
      split at stepped <;> obtain rfl := some.inj stepped
      · exact .inr ⟨rfl, by simp [Queue.ahead, here]⟩
      · exact .inr ⟨rfl, by simp [Queue.ahead, here]⟩
  | count done =>
    dsimp only at stepped
    split at stepped <;> obtain rfl := some.inj stepped
    all_goals exact .inr ⟨rfl, by simp [Queue.ahead, here]⟩
  | unlink | call | release | unlock =>
    obtain rfl := some.inj stepped
    exact .inr ⟨rfl, by simp [Queue.ahead, here]⟩

theorem thread_frame (stepped : workqueueThread m = some next) :
    next.submitted = m.submitted ∧ next.delay = m.delay ∧ next.expired = m.expired ∧ next.starting = m.starting := by
  unfold workqueueThread at stepped
  repeat' split at stepped
  all_goals cases stepped
  all_goals exact ⟨rfl, rfl, rfl, rfl⟩

/-- The worker is blocked only without a permit. -/
theorem thread_blocked (blocked : workqueueThread m = none) : m.thread = .lock ∧ m.semaphore = 0 := by
  unfold workqueueThread at blocked
  repeat' split at blocked
  all_goals simp_all

end Thread

/-- Left alone, the thread calls exactly the items that are due, and then it blocks. -/
theorem workqueue_drains (actions : List Action) (m : Queue) (ran : run step workqueueCreate actions = some m)
    (settled : m.starting = []) :
    ∃ steps final, run step m (replicate steps .thread) = some final ∧ final.thread = .lock ∧ final.semaphore = 0 ∧
      ∀ work ∈ m.submitted, work ∈ final.called ↔ m.delay work = 0 ∨ work ∈ m.expired := by
  obtain ⟨steps, final, drained, ⟨delivery, submitted, delay, expired, starting⟩, blocked⟩ :=
    run_replicate_of_rank step .thread
      (fun s => Delivery s ∧ s.submitted = m.submitted ∧ s.delay = m.delay ∧ s.expired = m.expired ∧
        s.starting = m.starting) (fun s => toLex (s.semaphore, s.ahead)) (fun s next kept stepped => by
      obtain ⟨delivery, submitted, delay, expired, starting⟩ := kept
      have frame := thread_frame stepped
      refine ⟨⟨delivery.step stepped, ?_, ?_, ?_, ?_⟩, thread_ahead delivery stepped⟩
      · exact frame.1.trans submitted
      · exact frame.2.1.trans delay
      · exact frame.2.2.1.trans expired
      · exact frame.2.2.2.trans starting) m ⟨Delivery.of_run ran, rfl, rfl, rfl, rfl⟩
  obtain ⟨here, none⟩ := thread_blocked blocked
  have permits := delivery.permits
  rw [here, none, starting, settled] at permits
  have idle : ∀ work ∈ final.list, final.isSchedulable work ≠ true := countP_eq_zero.mp permits.symm
  refine ⟨steps, final, drained, here, none, fun work there => ?_⟩
  rw [← submitted] at there
  have due := delivery.expiry.schedulable work (delivery.below there)
  rw [delay, expired] at due
  rw [← due]
  have line := delivery.lined.same.mem_iff.mpr there
  rw [Queue.line, here] at line
  constructor
  · exact fun called => delivery.ready work (mem_append_left _ called)
  · exact fun ready => (mem_append.mp line).resolve_right fun listed => idle work listed ready

/-- Of two items the second one is delayed. -/
def nowThenDelayed : List Action :=
  [.queue ⟨8192, 7⟩, .schedule ⟨4096, 0⟩ 5] ++ replicate 4 (.proceed 0) ++ replicate 3 (.proceed 1)

theorem workqueue_drains_delayed : ∃ m steps final, run step workqueueCreate nowThenDelayed = some m ∧
    run step m (replicate steps .thread) = some final ∧ final.thread = .lock := by
  have ends : (run step workqueueCreate nowThenDelayed).map (·.starting) = some [] := by decide +kernel
  obtain ⟨m, ran, settled⟩ := map_eq_some_iff.mp ends
  obtain ⟨steps, final, drained, here, -⟩ := workqueue_drains _ m ran settled
  exact ⟨m, steps, final, ran, drained, here⟩

end Phabos.Workqueue
