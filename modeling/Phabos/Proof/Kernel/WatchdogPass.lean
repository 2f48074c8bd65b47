import Phabos.Proof.Kernel.WatchdogOrder

namespace Phabos.Watchdog
open Library Function List

/-- Each timeout of a pass belongs to a watchdog that was active, due and not cancelled, and no two belong to
one arming. -/
structure Wdogs.Exact (now : BitVec 64) (s : Wdogs) : Prop where
  called : ∀ timeout ∈ s.timeouts,
    timeout.active = true ∧ timeout.endTick ≤ now ∧ timeout.cancelled = false
  once : (s.timeouts.map fun timeout => (timeout.wd, timeout.arming)).Nodup

/-- Callbacks start and cancel watchdogs, and when the loop goes on with the watchdog that it saved, that one is
still listed or has not expired. -/
def Wdogs.InPass (s : Wdogs) : Action → Prop
  | .start _ _ | .cancel _ => True
  | .resume => ∀ iter, s.pass = .calling (some iter) → iter ∈ s.wdogHead ∨ watchdogHasExpired s iter = false
  | .tick _ | .check | .leave => False

instance (s : Wdogs) : ∀ action, Decidable (s.InPass action)
  | .start _ _ | .cancel _ => inferInstanceAs (Decidable True)
  | .resume => decidable_of_iff
      (∀ iter ∈ (match s.pass with | .calling niter => niter | _ => none),
        iter ∈ s.wdogHead ∨ watchdogHasExpired s iter = false) (by
          unfold Wdogs.InPass
          cases s.pass <;> simp)
  | .tick _ | .check | .leave => inferInstanceAs (Decidable False)

/-- The number of active watchdogs that have expired. -/
def Wdogs.expired (s : Wdogs) : ℕ := s.wdogHead.countP (watchdogHasExpired s)

/-- The number of turns that the loop can still take. -/
def Wdogs.turns (s : Wdogs) : ℕ :=
  match s.pass with
  | .calling _ => s.expired + 1
  | _ => 0

/-- A pass is exact so far, and each listed watchdog has been armed since its last timeout. -/
structure Wdogs.Passing (now : BitVec 64) (s : Wdogs) : Prop where
  ticks : s.ticks = now
  nodup : s.wdogHead.Nodup
  exact : s.Exact now
  known : ∀ timeout ∈ s.timeouts, timeout.arming ≤ s.armings timeout.wd
  fresh : ∀ wd ∈ s.wdogHead, (wd, s.armings wd) ∉ s.timeouts.map fun timeout => (timeout.wd, timeout.arming)
  listed : ∀ wd ∈ s.wdogHead, s.cancelled wd = false

section Pass
variable {s next : Wdogs} {now : BitVec 64} {wd : ℕ}

theorem due_of_expired (past : watchdogHasExpired s wd = true) : (s.priv wd).endTick ≤ s.ticks := by
  unfold watchdogHasExpired at past
  split at past
  · exact of_decide_eq_true past
  · exact of_decide_eq_true (Bool.and_eq_true_iff.mp past).1

theorem start_unexpired (s : Wdogs) (wd : ℕ) (ticks : BitVec 32) (positive : ticks ≠ 0) :
    watchdogHasExpired (watchdogStart s wd ticks) wd = false := by
  unfold watchdogStart watchdogHasExpired
  rw [if_neg positive]
  simp only [update_self]
  split
  · rename_i armed
    rw [decide_eq_false_iff_not, BitVec.not_le]
    exact armed
  · rw [Bool.and_eq_false_iff]
    exact .inr (decide_eq_false (BitVec.lt_irrefl _))

/-- The loop goes on with no more turns left than watchdogs that have expired. -/
theorem Wdogs.Passing.checkNext (passing : s.Passing now) (niter : Option ℕ)
    (kept : ∀ iter, niter = some iter → iter ∈ s.wdogHead ∨ watchdogHasExpired s iter = false) :
    (watchdogCheckNext s niter).Passing now ∧ (watchdogCheckNext s niter).pass ≠ .idle ∧
      (watchdogCheckNext s niter).turns ≤ s.expired := by
  have finish : Wdogs.Passing now { s with pass := .finished } :=
    { passing with exact := ⟨passing.exact.called, passing.exact.once⟩ }
  cases niter with
  | none => exact ⟨finish, by simp [watchdogCheckNext], Nat.zero_le _⟩
  | some iter =>
    simp only [watchdogCheckNext]
    split
    · rename_i past
      have listed : iter ∈ s.wdogHead := by
        rcases kept iter rfl with listed | unexpired
        · exact listed
        · rw [past] at unexpired
          cases unexpired
      have others (wd) (there : wd ∈ s.wdogHead.erase iter) : wd ≠ iter ∧ wd ∈ s.wdogHead :=
        passing.nodup.mem_erase_iff.mp there
      refine ⟨⟨passing.ticks, passing.nodup.erase _, ⟨?_, ?_⟩, ?_, ?_, ?_⟩, by simp, ?_⟩
      · intro timeout there
        rcases mem_append.mp there with before | new
        · exact passing.exact.called timeout before
        · obtain rfl := mem_singleton.mp new
          exact ⟨decide_eq_true listed, passing.ticks ▸ due_of_expired past, passing.listed iter listed⟩
      · rw [map_append]
        refine nodup_append.mpr ⟨passing.exact.once, nodup_singleton _, ?_⟩
        intro pair before other new same
        rw [same, mem_singleton.mp new] at before
        exact passing.fresh iter listed before
      · intro timeout there
        rcases mem_append.mp there with before | new
        · exact passing.known timeout before
        · obtain rfl := mem_singleton.mp new
          exact Nat.le_refl _
      · intro wd there known
        rw [map_append] at known
        obtain ⟨differs, member⟩ := others wd there
        rcases mem_append.mp known with before | new
        · exact passing.fresh wd member before
        · exact differs (Prod.mk.inj (mem_singleton.mp new)).1
      · intro wd there
        exact passing.listed wd (others wd there).2
      · have one : s.wdogHead.countP (watchdogHasExpired s) =
            (s.wdogHead.erase iter).countP (watchdogHasExpired s) + 1 := by
          rw [(perm_cons_erase listed).countP_eq, countP_cons_of_pos past]
        change (s.wdogHead.erase iter).countP (watchdogHasExpired s) + 1 ≤
          s.wdogHead.countP (watchdogHasExpired s)
        exact Nat.le_of_eq one.symm
    · exact ⟨finish, by simp, Nat.zero_le _⟩

theorem Wdogs.Passing.start (passing : s.Passing now) {ticks : BitVec 32} (positive : ticks ≠ 0) :
    (watchdogStart s wd ticks).Passing now ∧ (watchdogStart s wd ticks).pass = s.pass ∧
      (watchdogStart s wd ticks).turns ≤ s.turns := by
  have fresh := start_unexpired s wd ticks positive
  have list (iter) : iter ∈ (watchdogStart s wd ticks).wdogHead ↔ iter = wd ∨ iter ∈ s.wdogHead.erase wd := by
    unfold watchdogStart
    rw [if_neg positive]
    exact listSortedAdd_perm.mem_iff.trans mem_cons
  have perm : (watchdogStart s wd ticks).wdogHead.Perm (wd :: s.wdogHead.erase wd) := by
    unfold watchdogStart
    rw [if_neg positive]
    exact listSortedAdd_perm
  have others (iter) (there : iter ∈ s.wdogHead.erase wd) : iter ≠ wd ∧ iter ∈ s.wdogHead :=
    passing.nodup.mem_erase_iff.mp there
  have unexpired (iter) (differs : iter ≠ wd) :
      watchdogHasExpired (watchdogStart s wd ticks) iter = watchdogHasExpired s iter := by
    apply expired_congr
    · unfold watchdogStart
      rw [if_neg positive]
      exact update_of_ne differs _ _
    · unfold watchdogStart
      rw [if_neg positive]
  have shape : (watchdogStart s wd ticks).timeouts = s.timeouts ∧ (watchdogStart s wd ticks).ticks = s.ticks ∧
      (watchdogStart s wd ticks).pass = s.pass ∧
      (watchdogStart s wd ticks).armings = update s.armings wd (s.armings wd + 1) ∧
      (watchdogStart s wd ticks).cancelled = update s.cancelled wd false := by
    unfold watchdogStart
    rw [if_neg positive]
    exact ⟨rfl, rfl, rfl, rfl, rfl⟩
  generalize watchdogStart s wd ticks = next at fresh list perm unexpired shape
  obtain ⟨timeouts, ticks, pass, armings, cancelled⟩ := shape
  have more (iter) : s.armings iter ≤ next.armings iter := by
    rw [armings]
    by_cases same : iter = wd
    · rw [same, update_self]
      omega
    · rw [update_of_ne same]
  refine ⟨⟨ticks.trans passing.ticks, ?_, ⟨?_, ?_⟩, ?_, ?_, ?_⟩, pass, ?_⟩
  · rw [perm.nodup_iff, nodup_cons]
    exact ⟨fun there => (others wd there).1 rfl, passing.nodup.erase wd⟩
  · rw [timeouts]
    exact passing.exact.called
  · rw [timeouts]
    exact passing.exact.once
  · rw [timeouts]
    intro timeout there
    exact Nat.le_trans (passing.known timeout there) (more timeout.wd)
  · intro iter there
    rw [timeouts, armings]
    rcases (list iter).mp there with rfl | known
    · rw [update_self]
      intro called
      obtain ⟨timeout, member, same⟩ := mem_map.mp called
      obtain ⟨rfl, arming⟩ := Prod.mk.inj same
      have := passing.known timeout member
      omega
    · rw [update_of_ne (others iter known).1]
      exact passing.fresh iter (others iter known).2
  · intro iter there
    rw [cancelled]
    rcases (list iter).mp there with rfl | known
    · rw [update_self]
    · rw [update_of_ne (others iter known).1]
      exact passing.listed iter (others iter known).2
  · have fewer : next.expired ≤ s.expired := by
      unfold Wdogs.expired
      rw [perm.countP_eq, countP_cons_of_neg (by rw [fresh]; decide)]
      have same : (s.wdogHead.erase wd).countP (watchdogHasExpired next) =
          (s.wdogHead.erase wd).countP (watchdogHasExpired s) :=
        countP_congr fun iter there => by rw [unexpired iter (others iter there).1]
      rw [same]
      exact erase_sublist.countP_le
    unfold Wdogs.turns
    rw [pass]
    split <;> omega

theorem Wdogs.Passing.cancel (passing : s.Passing now) {niter : Option ℕ} (calling : s.pass = .calling niter) :
    Wdogs.Passing now { watchdogCancel s wd with cancelled := update s.cancelled wd true } ∧
      Wdogs.turns { watchdogCancel s wd with cancelled := update s.cancelled wd true } ≤ s.turns := by
  have others (iter) (there : iter ∈ s.wdogHead.erase wd) : iter ≠ wd ∧ iter ∈ s.wdogHead :=
    passing.nodup.mem_erase_iff.mp there
  refine ⟨⟨passing.ticks, passing.nodup.erase wd,
    ⟨passing.exact.called, passing.exact.once⟩, passing.known, ?_, ?_⟩, ?_⟩
  · intro iter there
    exact passing.fresh iter (others iter there).2
  · intro iter there
    obtain ⟨differs, member⟩ := others iter there
    exact (update_of_ne differs _ _).trans (passing.listed iter member)
  · have fewer : (s.wdogHead.erase wd).countP (watchdogHasExpired s) ≤
        s.wdogHead.countP (watchdogHasExpired s) := erase_sublist.countP_le
    unfold Wdogs.turns
    simp only [watchdogCancel, calling]
    exact Nat.succ_le_succ fewer

/-- A step of a pass keeps it exact and uses up its turns. -/
theorem Wdogs.Passing.step {action : Action} (passing : s.Passing now) (running : s.pass ≠ .idle)
    (inPass : s.InPass action) (stepped : step s action = some next) :
    next.Passing now ∧ next.pass ≠ .idle ∧
      next.turns + (if action = .resume then 1 else 0) ≤ s.turns := by
  cases action with
  | start wd ticks =>
    obtain ⟨allowed, same⟩ := Option.ite_none_left_eq_some.mp stepped
    obtain rfl := Option.some.inj same
    obtain ⟨kept, pass, fewer⟩ := passing.start fun zero => allowed (.inr zero)
    exact ⟨kept, pass ▸ running, fewer⟩
  | cancel wd =>
    rcases step_cancel stepped with ⟨pass, -⟩ | ⟨niter, pass, rfl⟩
    · exact absurd pass running
    · obtain ⟨kept, fewer⟩ := passing.cancel pass
      exact ⟨kept, running, fewer⟩
  | resume =>
    obtain ⟨niter, pass, rfl⟩ := step_resume stepped
    obtain ⟨kept, running, fewer⟩ := passing.checkNext niter fun iter same => inPass iter (same ▸ pass)
    refine ⟨kept, running, ?_⟩
    rw [if_pos rfl, Wdogs.turns.eq_def s, pass]
    exact Nat.succ_le_succ fewer
  | tick ticks => exact inPass.elim
  | check => exact inPass.elim
  | leave => exact inPass.elim

end Pass

/-- A pass whose callbacks do what they like, but leave the expired watchdog listed that the loop has saved, is
exact and ends after at most one turn for each watchdog that had expired. -/
theorem watchdog_check_expired_exact (s : Wdogs) (distinct : s.wdogHead.Nodup) (none : s.timeouts = [])
    (callbacks : List Action) (final : Wdogs) (inPass : Guarded step Wdogs.InPass (watchdogCheckExpired s) callbacks)
    (ran : run step (watchdogCheckExpired s) callbacks = some final) :
    final.Exact s.ticks ∧ callbacks.countP (· = .resume) ≤ s.expired ∧
      (final.pass = .finished ∨ ∃ next, step final .resume = some next) := by
  have fresh : Wdogs.Passing s.ticks { s with cancelled := fun _ => false } := by
    refine ⟨rfl, distinct, ⟨?_, ?_⟩, ?_, ?_, fun _ _ => rfl⟩ <;> simp [none]
  obtain ⟨passing, running, turns⟩ := fresh.checkNext s.wdogHead.head?
    fun iter head => .inl (List.mem_of_mem_head? head)
  obtain ⟨last, done, bound⟩ := run_history_of_guarded (fun past s' => s'.Passing s.ticks ∧ s'.pass ≠ .idle ∧
      s'.turns + past.countP (· = .resume) ≤ (watchdogCheckExpired s).turns) ⟨passing, running, Nat.le_refl _⟩ inPass ran
    fun ⟨passing, running, bound⟩ inPass stepped => by
      obtain ⟨passing, running, fewer⟩ := passing.step running inPass stepped
      refine ⟨passing, running, ?_⟩
      rw [List.countP_append, List.countP_singleton]
      simp only [decide_eq_true_eq]
      omega
  refine ⟨last.exact, ?_, ?_⟩
  · exact Nat.le_trans (Nat.le_trans (Nat.le_add_left _ _) bound) turns
  · cases pass : final.pass with
    | idle => exact absurd pass done
    | finished => exact .inl rfl
    | calling niter =>
      refine .inr ⟨watchdogCheckNext final niter, ?_⟩
      unfold Watchdog.step
      rw [pass]

/-- The callback of the first of two expired watchdogs arms itself again and cancels a later one. -/
theorem watchdog_check_expired_exact_rearm :
    ∃ s final, run step .boot [.start 0 5, .start 1 6, .start 2 20, .tick 6] = some s ∧
      run step (watchdogCheckExpired s) [.start 0 3, .cancel 2, .resume, .resume] = some final ∧
      final.Exact s.ticks ∧ 2 ≤ s.expired ∧
      (final.pass = .finished ∨ ∃ next, step final .resume = some next) := by
  refine ⟨_, _, rfl, rfl, ?_⟩
  exact watchdog_check_expired_exact _ (by decide +kernel) rfl [.start 0 3, .cancel 2, .resume, .resume] _
    (by decide +kernel) rfl

/-- The callback of the first of two expired watchdogs cancels the second one, and the loop calls it again and
again. -/
theorem watchdog_check_expired_calls_cancelled :
    ∃ s final, run step .boot [.start 0 5, .start 1 6, .tick 6] = some s ∧
      run step (watchdogCheckExpired s) [.cancel 1, .resume, .resume, .resume] = some final ∧
      ¬final.Exact s.ticks ∧ final.pass = .calling (some 1) ∧
      final.timeouts.map (fun timeout => (timeout.wd, timeout.active, timeout.cancelled)) =
        [(0, true, false), (1, false, true), (1, false, true), (1, false, true)] := by
  refine ⟨_, _, rfl, rfl, fun exact => ?_, by decide +kernel, by decide +kernel⟩
  exact absurd exact.once (by decide +kernel)

end Phabos.Watchdog
