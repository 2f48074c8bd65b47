import Mathlib.Data.Rat.Floor
import Phabos.Construction.Kernel.Sleep
import Phabos.Proof.Kernel.WatchdogOrder

namespace Phabos.Sleep
open Library Watchdog Option

/-- The clock shows the time of the ticks in seconds and less than a second. -/
def Clocked (hz w : ℕ) (ticks : BitVec 64) : Prop :=
  ∃ tp : Timespec w, clockGettime hz .monotonic ticks = .ok tp ∧
    0 ≤ tp.tvNsec.toInt ∧ tp.tvNsec.toInt < ONE_SEC_IN_NSEC ∧
      tp.tvSec.toInt * ONE_SEC_IN_NSEC + tp.tvNsec.toInt = ticks.toNat * TICK_IN_NSEC hz

/-- The whole seconds and the nanoseconds that a task asks for -/
def Request.seconds {w : ℕ} : Request w → Int
  | .sleep seconds => seconds.toNat
  | .usleep usec => usec.toNat / 1000000
  | .nanosleep tvSec _ _ => tvSec.toInt

def Request.duration {w : ℕ} : Request w → Int
  | .sleep seconds => seconds.toNat * ONE_SEC_IN_NSEC
  | .usleep usec => usec.toNat * 1000
  | .nanosleep tvSec tvNsec _ => tvSec.toInt * ONE_SEC_IN_NSEC + tvNsec.toNat

/-- No pass is in progress, and the watchdog of the task is not active. -/
structure Calm (wdogs : Wdogs) : Prop where
  idle : wdogs.pass = .idle
  nodup : wdogs.wdogHead.Nodup
  inactive : own ∉ wdogs.wdogHead

/-- From this tick on, `nanosleep` returns only after as many ticks as the request has, rounded up. -/
def Sleeps {w : ℕ} (hz : ℕ) (request : Request w) (ticks : BitVec 64) : Prop :=
  ∀ wdogs, Calm wdogs → wdogs.ticks = ticks → ∀ events s,
    run (step hz request.timespec) (.called wdogs) events = some s → s.place = .returned →
      ⌈(request.duration : ℚ) / TICK_IN_NSEC hz⌉ ≤ s.elapsed

/-- The quotient rounded up, as `watchdog_start_nsec` computes it -/
def roundedUp (count unit : ℕ) : ℕ := count / unit + if count % unit ≠ 0 then 1 else 0

theorem roundedUp_bounds {count unit : ℕ} (positive : 0 < unit) :
    count ≤ roundedUp count unit * unit ∧ roundedUp count unit * unit < count + unit := by
  have split := Nat.div_add_mod count unit
  have rest := Nat.mod_lt count positive
  unfold roundedUp
  rw [Nat.add_mul, Nat.mul_comm]
  split_ifs with even <;> omega

section Ticks
variable {hz : ℕ} (divides : hz ∣ ONE_SEC_IN_NSEC)

theorem tick_le (hz : ℕ) : TICK_IN_NSEC hz ≤ ONE_SEC_IN_NSEC := Nat.div_le_self _ _

include divides

theorem hz_pos : 0 < hz := Nat.pos_of_dvd_of_pos divides (by decide)

theorem hz_mul_tick : hz * TICK_IN_NSEC hz = ONE_SEC_IN_NSEC := Nat.mul_div_cancel' divides

theorem tick_pos : 0 < TICK_IN_NSEC hz := Nat.div_pos (Nat.le_of_dvd (by decide) divides) (hz_pos divides)

theorem hz_le : hz ≤ ONE_SEC_IN_NSEC := Nat.le_of_dvd (by decide) divides

omit divides

theorem nsecTicks_toNat (nsec : BitVec 32) (small : nsec.toNat < ONE_SEC_IN_NSEC) :
    (nsecTicks hz nsec).toNat = max 1 (roundedUp nsec.toNat (TICK_IN_NSEC hz)) := by
  have width : (BitVec.ofNat 32 (TICK_IN_NSEC hz)).toNat = TICK_IN_NSEC hz := by
    rw [BitVec.toNat_ofNat]
    exact Nat.mod_eq_of_lt ((tick_le hz).trans_lt (by decide))
  have exact_iff : nsec % BitVec.ofNat 32 (TICK_IN_NSEC hz) ≠ 0 ↔ nsec.toNat % TICK_IN_NSEC hz ≠ 0 := by
    rw [ne_eq, ← BitVec.toNat_inj, BitVec.toNat_umod, width]
    rfl
  have quotient : nsec.toNat / TICK_IN_NSEC hz + 1 < 2 ^ 32 := by
    have less : nsec.toNat / TICK_IN_NSEC hz ≤ nsec.toNat := Nat.div_le_self _ _
    change nsec.toNat < 1000000000 at small
    omega
  have sum : (nsec / BitVec.ofNat 32 (TICK_IN_NSEC hz) +
      if nsec % BitVec.ofNat 32 (TICK_IN_NSEC hz) ≠ 0 then 1 else 0).toNat =
        roundedUp nsec.toNat (TICK_IN_NSEC hz) := by
    unfold roundedUp
    rw [if_congr exact_iff rfl rfl, BitVec.toNat_add, BitVec.toNat_udiv, width]
    by_cases even : nsec.toNat % TICK_IN_NSEC hz ≠ 0
    · rw [if_pos even, if_pos even]
      exact Nat.mod_eq_of_lt quotient
    · rw [if_neg even, if_neg even]
      exact Nat.mod_eq_of_lt (Nat.lt_of_succ_lt quotient)
  have at_least (ticks : BitVec 32) : (if ticks ≠ 0 then ticks else 1).toNat = max 1 ticks.toNat := by
    split_ifs with some
    · refine (Nat.max_eq_right (Nat.pos_of_ne_zero fun zero => ?_)).symm
      exact some (BitVec.eq_of_toNat_eq zero)
    · rw [not_not.mp some]
      rfl
  rw [← sum]
  exact at_least _

theorem secTicks_toNat (sec : BitVec 32) :
    (secTicks hz sec).toNat = max 1 (sec.toNat * hz % 2 ^ 32) := by
  have product : (sec * BitVec.ofNat 32 hz).toNat = sec.toNat * hz % 2 ^ 32 := by
    rw [BitVec.toNat_mul, BitVec.toNat_ofNat, Nat.mul_mod_mod]
  have zero_iff : sec * BitVec.ofNat 32 hz ≠ 0 ↔ sec.toNat * hz % 2 ^ 32 ≠ 0 := by
    rw [ne_eq, ← BitVec.toNat_inj, product]
    rfl
  unfold secTicks
  rw [if_congr zero_iff rfl rfl, apply_ite BitVec.toNat, product]
  split_ifs with some
  · exact (Nat.max_eq_right (Nat.pos_of_ne_zero some)).symm
  · rw [not_not.mp some]
    rfl

end Ticks

section Requests
variable {hz w : ℕ} (request : Request w)

theorem usleep_nsec (usec : BitVec 32) : (usec % 1000000 * 1000).toNat = usec.toNat % 1000000 * 1000 := by
  have rest : usec.toNat % 1000000 < 1000000 := Nat.mod_lt _ (by decide)
  rw [BitVec.toNat_mul, BitVec.toNat_umod]
  exact Nat.mod_eq_of_lt (show usec.toNat % 1000000 * 1000 < 2 ^ 32 by omega)

theorem Request.small : request.timespec.tvNsec.toNat < ONE_SEC_IN_NSEC := by
  cases request with
  | sleep seconds => exact show 0 < ONE_SEC_IN_NSEC by decide
  | usleep usec =>
    have rest : usec.toNat % 1000000 < 1000000 := Nat.mod_lt _ (by decide)
    change (usec % 1000000 * 1000).toNat < 1000000000
    rw [usleep_nsec]
    omega
  | nanosleep tvSec tvNsec small => exact small

theorem Request.duration_eq :
    request.duration = request.seconds * ONE_SEC_IN_NSEC + request.timespec.tvNsec.toNat := by
  cases request with
  | sleep seconds => exact (Int.add_zero _).symm
  | usleep usec =>
    change (usec.toNat : Int) * 1000 =
      (usec.toNat : Int) / 1000000 * (1000000000 : ℕ) + ((usec % 1000000 * 1000).toNat : Int)
    rw [usleep_nsec]
    omega
  | nanosleep tvSec tvNsec small => rfl

theorem Request.sec_toNat (wide : 32 ≤ w) :
    ((BitVec.ofInt 32 request.timespec.tvSec.toInt).toNat : Int) = request.seconds % 2 ^ 32 := by
  have narrow (seconds : BitVec 32) : BitVec.ofInt 32 (seconds.setWidth w).toInt = seconds := by
    change BitVec.signExtend 32 (seconds.setWidth w) = seconds
    rw [BitVec.signExtend_eq_setWidth_of_le _ wide, BitVec.setWidth_setWidth_of_le _ wide, BitVec.setWidth_eq]
  have below (seconds : BitVec 32) : (seconds.toNat : Int) = (seconds.toNat : Int) % 2 ^ 32 := by
    have := seconds.isLt
    omega
  cases request with
  | sleep seconds =>
    change ((BitVec.ofInt 32 (seconds.setWidth w).toInt).toNat : Int) = _
    rw [narrow]
    exact below seconds
  | usleep usec =>
    change ((BitVec.ofInt 32 ((usec / 1000000).setWidth w).toInt).toNat : Int) = _
    rw [narrow, below, BitVec.toNat_udiv]
    rfl
  | nanosleep tvSec tvNsec small =>
    change ((BitVec.ofInt 32 tvSec.toInt).toNat : Int) = tvSec.toInt % 2 ^ 32
    rw [BitVec.toNat_ofInt]
    omega

theorem enough_iff {count unit nsec up : Int} (positive : 0 < unit) (natural : 0 ≤ up) (above : nsec ≤ up * unit)
    (near : up * unit < nsec + unit) :
    count * unit + nsec ≤ (max 1 (count % 2 ^ 32) + max 1 up) * unit ↔ count < 2 ^ 32 := by
  have rest : 0 ≤ count % 2 ^ 32 := Int.emod_nonneg _ (by decide)
  constructor
  · intro enough
    by_contra wraps
    have lost : count % 2 ^ 32 + 2 ^ 32 ≤ count := by omega
    have first : max 1 (count % 2 ^ 32) ≤ count % 2 ^ 32 + 1 := by omega
    have last : max 1 up ≤ up + 1 := by omega
    have wide : (count % 2 ^ 32 + 2 ^ 32) * unit ≤ count * unit := Int.mul_le_mul_of_nonneg_right lost positive.le
    have bound : (max 1 (count % 2 ^ 32) + max 1 up) * unit ≤ (count % 2 ^ 32 + 1 + (up + 1)) * unit :=
      Int.mul_le_mul_of_nonneg_right (Int.add_le_add first last) positive.le
    simp only [Int.add_mul] at wide bound enough
    omega
  · intro fits
    have first : count ≤ max 1 (count % 2 ^ 32) := by omega
    have seconds : count * unit ≤ max 1 (count % 2 ^ 32) * unit := Int.mul_le_mul_of_nonneg_right first positive.le
    have rest : up * unit ≤ max 1 up * unit := Int.mul_le_mul_of_nonneg_right (le_max_right 1 up) positive.le
    rw [Int.add_mul]
    omega

/-- The ticks of both stages are as many as the request has exactly when the ticks of its seconds have 32 bits. -/
theorem Request.ticks_iff (divides : hz ∣ ONE_SEC_IN_NSEC) (wide : 32 ≤ w) :
    ⌈(request.duration : ℚ) / TICK_IN_NSEC hz⌉ ≤
        ((Stage.sec.ticks hz request.timespec).toNat + (Stage.nsec.ticks hz request.timespec).toNat : ℕ) ↔
      request.seconds * hz < 2 ^ 32 := by
  have positive := tick_pos divides
  have rational : (0 : ℚ) < TICK_IN_NSEC hz := Nat.cast_pos.mpr positive
  have second : (hz : Int) * TICK_IN_NSEC hz = ONE_SEC_IN_NSEC := by
    rw [← hz_mul_tick divides]
    exact (Nat.cast_mul _ _).symm
  have rate : 0 < (hz : Int) := Nat.cast_pos.mpr (hz_pos divides)
  have nsec : ((Stage.nsec.ticks hz request.timespec).toNat : Int) =
      max 1 (roundedUp request.timespec.tvNsec.toNat (TICK_IN_NSEC hz) : Int) := by
    change ((nsecTicks hz request.timespec.tvNsec).toNat : Int) = _
    rw [nsecTicks_toNat _ request.small, Nat.cast_max, Nat.cast_one]
  have sec : ((Stage.sec.ticks hz request.timespec).toNat : Int) = max 1 (request.seconds * hz % 2 ^ 32) := by
    change ((secTicks hz (BitVec.ofInt 32 request.timespec.tvSec.toInt)).toNat : Int) = _
    rw [secTicks_toNat, Nat.cast_max, Nat.cast_one, Int.natCast_mod, Nat.cast_mul, request.sec_toNat wide,
      Nat.cast_pow, Nat.cast_ofNat, Int.mul_emod, Int.emod_emod_of_dvd _ (dvd_refl _), ← Int.mul_emod]
  obtain ⟨up, near⟩ := @roundedUp_bounds request.timespec.tvNsec.toNat _ positive
  have whole (elapsed : ℕ) : ⌈(request.duration : ℚ) / TICK_IN_NSEC hz⌉ ≤ elapsed ↔
      request.seconds * hz * TICK_IN_NSEC hz + request.timespec.tvNsec.toNat ≤ elapsed * (TICK_IN_NSEC hz : Int) := by
    rw [Int.ceil_le, div_le_iff₀ rational, mul_assoc, second, ← request.duration_eq]
    exact_mod_cast Iff.rfl
  rw [whole, Nat.cast_add, sec, nsec]
  apply enough_iff (Nat.cast_pos.mpr positive) (Nat.cast_nonneg _)
  · exact_mod_cast up
  · exact_mod_cast near

theorem clocked_iff (divides : hz ∣ ONE_SEC_IN_NSEC) (wide : 32 ≤ w) (ticks : BitVec 64) :
    Clocked hz w ticks ↔
      ticks.toNat / hz < 2 ^ (w - 1) ∧ (ticks.toNat % hz = 0 ∨ hz = ONE_SEC_IN_NSEC) := by
  have second := hz_mul_tick divides
  have split := Nat.div_add_mod ticks.toNat hz
  have rest := Nat.mod_lt ticks.toNat (hz_pos divides)
  have bound := hz_le divides
  have nsec : (BitVec.ofNat 32 (ticks.toNat % hz)).toInt = (ticks.toNat % hz : ℕ) := by
    change hz ≤ 1000000000 at bound
    rw [BitVec.toInt_eq_toNat_of_lt] <;> rw [BitVec.toNat_ofNat, Nat.mod_eq_of_lt] <;> omega
  have time : (ticks.toNat : Int) * TICK_IN_NSEC hz =
      (ticks.toNat / hz : ℕ) * ONE_SEC_IN_NSEC + (ticks.toNat % hz : ℕ) * TICK_IN_NSEC hz := by
    rw [← second, ← Nat.cast_mul, ← Nat.cast_mul, ← Nat.cast_mul, ← Nat.cast_add]
    congr 1
    calc ticks.toNat * TICK_IN_NSEC hz
        = (hz * (ticks.toNat / hz) + ticks.toNat % hz) * TICK_IN_NSEC hz := by rw [split]
      _ = ticks.toNat / hz * (hz * TICK_IN_NSEC hz) + ticks.toNat % hz * TICK_IN_NSEC hz := by ring
  have shows : Clocked hz w ticks ↔ (BitVec.ofNat w (ticks.toNat / hz)).toInt * ONE_SEC_IN_NSEC +
      (ticks.toNat % hz : ℕ) = (ticks.toNat : Int) * TICK_IN_NSEC hz := by
    constructor
    · rintro ⟨tp, got, -, -, same⟩
      obtain rfl := Except.ok.inj got
      change _ + (BitVec.ofNat 32 (ticks.toNat % hz)).toInt = _ at same
      rwa [nsec] at same
    · intro same
      refine ⟨_, rfl, ?_⟩
      change 0 ≤ (BitVec.ofNat 32 (ticks.toNat % hz)).toInt ∧ (BitVec.ofNat 32 (ticks.toNat % hz)).toInt < _ ∧
        _ + (BitVec.ofNat 32 (ticks.toNat % hz)).toInt = _
      rw [nsec]
      exact ⟨Nat.cast_nonneg _, Nat.cast_lt.mpr (rest.trans_le bound), same⟩
  have halves : 2 ^ w = 2 * 2 ^ (w - 1) := by
    rw [← Nat.pow_succ']
    congr 1
    omega
  have unit : ticks.toNat % hz = ticks.toNat % hz * TICK_IN_NSEC hz ↔ ticks.toNat % hz = 0 ∨ hz = ONE_SEC_IN_NSEC := by
    constructor
    · intro same
      rcases Nat.eq_zero_or_pos (ticks.toNat % hz) with zero | some
      · exact .inl zero
      · have one : TICK_IN_NSEC hz = 1 := (Nat.eq_of_mul_eq_mul_left some (by rw [← same, Nat.mul_one])).symm
        rw [one, Nat.mul_one] at second
        exact .inr second
    · rintro (zero | same)
      · rw [zero, Nat.zero_mul]
      · have one : TICK_IN_NSEC hz = 1 := by
          rw [same]
          rfl
        rw [one, Nat.mul_one]
  rw [shows, time, ← unit]
  by_cases fits : ticks.toNat / hz < 2 ^ (w - 1)
  · have sec : (BitVec.ofNat w (ticks.toNat / hz)).toInt = (ticks.toNat / hz : ℕ) := by
      rw [BitVec.toInt_eq_toNat_of_lt] <;> rw [BitVec.toNat_ofNat, Nat.mod_eq_of_lt] <;> omega
    rw [sec, and_iff_right fits]
    constructor
    · intro same
      exact_mod_cast Int.add_left_cancel same
    · intro same
      congr 1
      exact_mod_cast same
  · refine iff_of_false (fun same => ?_) fun both => fits both.1
    have small : (BitVec.ofNat w (ticks.toNat / hz)).toInt < 2 ^ (w - 1) := BitVec.toInt_lt
    have large : ((2 ^ (w - 1) : ℕ) : Int) ≤ (ticks.toNat / hz : ℕ) := Nat.cast_le.mpr (Nat.le_of_not_lt fits)
    rw [Nat.cast_pow, Nat.cast_ofNat] at large
    have less := Int.mul_le_mul_of_nonneg_right (Int.add_one_le_of_lt (small.trans_le large))
      (Nat.cast_nonneg (α := Int) ONE_SEC_IN_NSEC)
    have second_rest : ((ticks.toNat % hz : ℕ) : Int) < ONE_SEC_IN_NSEC := Nat.cast_lt.mpr (rest.trans_le bound)
    have rest_time : (0 : Int) ≤ (ticks.toNat % hz : ℕ) * TICK_IN_NSEC hz :=
      Int.mul_nonneg (Nat.cast_nonneg _) (Nat.cast_nonneg _)
    rw [Int.add_mul] at less
    omega

end Requests

variable {wdogs : Wdogs}

/-- A watchdog does not expire before the ticks that it was armed for have gone by, even where the tick count wraps. -/
theorem expired_after {wd count : ℕ} {currentTicks : BitVec 64} {ticks : BitVec 32}
    (armed : wdogs.priv wd = ⟨currentTicks, currentTicks + ticks.setWidth 64⟩)
    (now : wdogs.ticks = currentTicks + BitVec.ofNat 64 count) (expired : watchdogHasExpired wdogs wd = true) :
    ticks.toNat ≤ count := by
  by_contra early
  have start := currentTicks.isLt
  have delay := ticks.isLt
  have due : (currentTicks + ticks.setWidth 64).toNat = (currentTicks.toNat + ticks.toNat) % 2 ^ 64 := by
    rw [BitVec.toNat_add, BitVec.toNat_setWidth, Nat.mod_eq_of_lt (show ticks.toNat < 2 ^ 64 by omega)]
  have time : (currentTicks + BitVec.ofNat 64 count).toNat = (currentTicks.toNat + count) % 2 ^ 64 := by
    rw [BitVec.toNat_add, BitVec.toNat_ofNat, Nat.add_mod_mod]
  unfold watchdogHasExpired at expired
  rw [armed, now] at expired
  simp only [BitVec.lt_def, BitVec.le_def, due, time] at expired
  split at expired
  · have past := of_decide_eq_true expired
    omega
  · have past := Bool.and_eq_true_iff.mp expired
    have first := of_decide_eq_true past.1
    have last := of_decide_eq_true past.2
    omega

section Run
variable {w : ℕ} (hz : ℕ) (req : Timespec w)

/-- The ticks that have gone by before a stage -/
def Stage.before : Stage → ℕ
  | .sec => 0
  | .nsec => (Stage.sec.ticks hz req).toNat

/-- The tick count was this one at some time since the stage began. -/
def Sleeper.Since (s : Sleeper) (stage : Stage) (currentTicks : BitVec 64) : Prop :=
  ∃ read, stage.before hz req ≤ read ∧ read ≤ s.elapsed ∧
    s.wdogs.ticks = currentTicks + BitVec.ofNat 64 (s.elapsed - read)

/-- The watchdog of the task is active since it was armed in this stage, or its timeout has come in time. -/
def Sleeper.Waits (s : Sleeper) (stage : Stage) : Prop :=
  (own ∈ s.wdogs.wdogHead ∧ s.semaphore = 0 ∧ ∃ currentTicks, s.Since hz req stage currentTicks ∧
    s.wdogs.priv own = ⟨currentTicks, currentTicks + (stage.ticks hz req).setWidth 64⟩) ∨
  (own ∉ s.wdogs.wdogHead ∧ s.semaphore = 1 ∧ stage.before hz req + (stage.ticks hz req).toNat ≤ s.elapsed)

/-- What holds where the task is -/
def Sleeper.At (s : Sleeper) : Place → Prop
  | .getTicks stage => own ∉ s.wdogs.wdogHead ∧ s.semaphore = 0 ∧ stage.before hz req ≤ s.elapsed
  | .add stage currentTicks => own ∉ s.wdogs.wdogHead ∧ s.semaphore = 0 ∧ s.Since hz req stage currentTicks
  | .lock stage => s.Waits hz req stage
  | .delete | .returned => (Stage.sec.ticks hz req).toNat + (Stage.nsec.ticks hz req).toNat ≤ s.elapsed

structure Sound (s : Sleeper) : Prop where
  nodup : s.wdogs.wdogHead.Nodup
  cursor : s.wdogs.pass = .calling (some own) → own ∈ s.wdogs.wdogHead
  place : s.At hz req s.place

variable {hz req} {s next : Sleeper}

theorem Sleeper.At.others {place : Place} (at_place : s.At hz req place)
    (listed : own ∈ next.wdogs.wdogHead ↔ own ∈ s.wdogs.wdogHead) (armed : next.wdogs.priv own = s.wdogs.priv own)
    (semaphore : next.semaphore = s.semaphore) {increment : ℕ}
    (ticks : next.wdogs.ticks = s.wdogs.ticks + BitVec.ofNat 64 increment)
    (elapsed : next.elapsed = s.elapsed + increment) : next.At hz req place := by
  have since {stage : Stage} {currentTicks : BitVec 64} (before : s.Since hz req stage currentTicks) :
      next.Since hz req stage currentTicks := by
    obtain ⟨read, first, last, now⟩ := before
    refine ⟨read, first, by omega, ?_⟩
    rw [ticks, now, elapsed, BitVec.add_assoc, ← BitVec.ofNat_add]
    congr 2
    omega
  cases place with
  | getTicks stage =>
    obtain ⟨inactive, zero, before⟩ := at_place
    exact ⟨fun there => inactive (listed.mp there), semaphore.trans zero, by omega⟩
  | add stage currentTicks =>
    obtain ⟨inactive, zero, before⟩ := at_place
    exact ⟨fun there => inactive (listed.mp there), semaphore.trans zero, since before⟩
  | lock stage =>
    rcases at_place with ⟨active, zero, currentTicks, before, right⟩ | ⟨inactive, one, past⟩
    · exact .inl ⟨listed.mpr active, semaphore.trans zero, currentTicks, since before, armed.trans right⟩
    · exact .inr ⟨fun there => inactive (listed.mp there), semaphore.trans one, by omega⟩
  | delete | returned =>
    change _ ≤ next.elapsed
    rw [elapsed]
    exact Nat.le_add_right_of_le at_place

theorem Sleeper.At.called {place : Place} (at_place : s.At hz req place) (listed : own ∈ s.wdogs.wdogHead)
    (past : watchdogHasExpired s.wdogs own = true) (inactive : own ∉ next.wdogs.wdogHead)
    (semaphore : next.semaphore = s.semaphore + 1) (elapsed : next.elapsed = s.elapsed) : next.At hz req place := by
  cases place with
  | getTicks stage | add stage currentTicks => exact absurd listed at_place.1
  | lock stage =>
    rcases at_place with ⟨_, zero, currentTicks, ⟨read, first, last, now⟩, armed⟩ | ⟨gone, _⟩
    · have ticks := expired_after armed now past
      exact .inr ⟨inactive, by omega, by omega⟩
    · exact absurd listed gone
  | delete | returned =>
    change _ ≤ next.elapsed
    rw [elapsed]
    exact at_place

theorem Sound.checkNext (sound : Sound hz req s) (niter : Option ℕ)
    (listed : niter = some own → own ∈ s.wdogs.wdogHead) :
    Sound hz req (s.checked (watchdogCheckNext s.wdogs niter)) := by
  have quiet : Sound hz req (s.checked { s.wdogs with pass := .finished }) := by
    refine ⟨sound.nodup, nofun, ?_⟩
    exact sound.place.others Iff.rfl rfl (by simp [Sleeper.checked]) (BitVec.add_zero _).symm rfl
  cases niter with
  | none => exact quiet
  | some iter =>
    by_cases past : watchdogHasExpired s.wdogs iter = true
    swap
    · simp only [watchdogCheckNext, if_neg past]
      exact quiet
    simp only [watchdogCheckNext, if_pos past]
    have member (wd : ℕ) : wd ∈ s.wdogs.wdogHead.erase iter ↔ wd ≠ iter ∧ wd ∈ s.wdogs.wdogHead :=
      sound.nodup.mem_erase_iff
    refine ⟨sound.nodup.erase iter, fun calling => ?_, ?_⟩
    · have saved : Cursor.next s.wdogs.wdogHead (some iter) = some own := Pass.calling.inj calling
      by_cases same : iter = own
      · subst same
        have longer := Cursor.onwards_next sound.nodup (listed rfl)
        rw [saved] at longer
        exact absurd (congrArg List.length longer) (by simp)
      · have there := (Cursor.mem_or_eq_of_next saved).resolve_right fun moved => same (Option.some.inj moved)
        exact (member own).mpr ⟨Ne.symm same, there⟩
    · by_cases same : iter = own
      · subst same
        exact sound.place.called (listed rfl) past (fun there => ((member own).mp there).1 rfl) (by simp [Sleeper.checked])
          rfl
      · refine sound.place.others ?_ rfl (by simp [Sleeper.checked, same]) (BitVec.add_zero _).symm rfl
        exact (member own).trans (and_iff_right (Ne.symm same))

theorem Stage.ticks_ne_zero (stage : Stage) : stage.ticks hz req ≠ 0 := by
  have at_least (ticks : BitVec 32) : (if ticks ≠ 0 then ticks else 1) ≠ 0 := by
    split_ifs with some
    · exact some
    · decide
  cases stage with
  | sec => exact at_least _
  | nsec => exact at_least _

theorem watchdogStart_fields {wd : ℕ} {ticks : BitVec 32} (some : ticks ≠ 0) :
    (watchdogStart wdogs wd ticks).wdogHead.Perm (wd :: wdogs.wdogHead.erase wd) ∧
      (watchdogStart wdogs wd ticks).priv = Function.update wdogs.priv wd ⟨wdogs.ticks, wdogs.ticks + ticks.setWidth 64⟩ ∧
      (watchdogStart wdogs wd ticks).pass = wdogs.pass ∧ (watchdogStart wdogs wd ticks).ticks = wdogs.ticks := by
  unfold watchdogStart
  rw [if_neg some]
  exact ⟨listSortedAdd_perm, rfl, rfl, rfl⟩

theorem nodup_of_moved {before after : List ℕ} {node : ℕ} (nodup : before.Nodup)
    (moved : after.Perm (node :: before.erase node)) :
    after.Nodup ∧ ∀ other, other ∈ after ↔ other = node ∨ other ∈ before := by
  constructor
  · rw [moved.nodup_iff, List.nodup_cons]
    exact ⟨fun there => (nodup.mem_erase_iff.mp there).1 rfl, nodup.erase node⟩
  · intro other
    rw [moved.mem_iff, List.mem_cons, nodup.mem_erase_iff]
    by_cases same : other = node
    · simp [same]
    · simp [same]

theorem Sound.nanosleepStep (sound : Sound hz req s) (idle : s.wdogs.pass = .idle)
    (stepped : nanosleepStep s hz req = some next) : Sound hz req next := by
  have free (wdogs : Wdogs) (pass : wdogs.pass = .idle) : wdogs.pass = .calling (some own) → own ∈ wdogs.wdogHead := by
    intro calling
    rw [pass] at calling
    cases calling
  have place := sound.place
  unfold Sleep.nanosleepStep at stepped
  cases here : s.place with
  | getTicks stage =>
    simp only [here] at stepped place
    obtain rfl := Option.some.inj stepped
    obtain ⟨inactive, zero, before⟩ := place
    refine ⟨sound.nodup, sound.cursor, inactive, zero, s.elapsed, before, Nat.le_refl _, ?_⟩
    rw [Nat.sub_self]
    exact (BitVec.add_zero _).symm
  | add stage currentTicks =>
    simp only [here] at stepped place
    obtain rfl := Option.some.inj stepped
    obtain ⟨inactive, zero, since⟩ := place
    obtain ⟨moved, priv, pass, -⟩ := @watchdogStart_fields { s.wdogs with ticks := currentTicks } own _
      (@Stage.ticks_ne_zero _ hz req stage)
    obtain ⟨nodup, member⟩ := nodup_of_moved sound.nodup moved
    refine ⟨nodup, free _ (pass.trans idle), .inl ⟨(member own).mpr (.inl rfl), zero, currentTicks, since, ?_⟩⟩
    rw [priv, Function.update_self]
  | lock stage =>
    simp only [here] at stepped place
    cases count : s.semaphore with
    | zero =>
      rw [count] at stepped
      cases stepped
    | succ semaphore =>
      rw [count] at stepped
      obtain rfl := Option.some.inj stepped
      rcases place with ⟨_, zero, _⟩ | ⟨inactive, one, past⟩
      · omega
      · refine ⟨sound.nodup, sound.cursor, ?_⟩
        cases stage with
        | sec =>
          have before : (Stage.sec.ticks hz req).toNat ≤ s.elapsed := by simpa [Stage.before] using past
          exact ⟨inactive, Nat.succ.inj (count.symm.trans one), before⟩
        | nsec => exact past
  | delete =>
    simp only [here] at stepped place
    obtain rfl := Option.some.inj stepped
    exact ⟨sound.nodup.erase own, free _ idle, place⟩
  | returned =>
    simp only [here] at stepped
    cases stepped

theorem Sound.step {event : Event} (sound : Sound hz req s) (stepped : step hz req s event = some next) :
    Sound hz req next := by
  cases event with
  | systick increment =>
    obtain ⟨idle, rfl⟩ := ite_some_none_eq_some.mp stepped
    have later : Sound hz req
        { s with
          wdogs := { s.wdogs with ticks := s.wdogs.ticks + BitVec.ofNat 64 increment, cancelled := fun _ => false }
          elapsed := s.elapsed + increment } :=
      ⟨sound.nodup, sound.cursor, sound.place.others Iff.rfl rfl rfl rfl rfl⟩
    exact later.checkNext s.wdogs.wdogHead.head? List.mem_of_mem_head?
  | resume =>
    obtain ⟨wdogs, resumed, rfl⟩ := map_eq_some_iff.mp stepped
    obtain ⟨niter, pass, rfl⟩ := step_resume resumed
    exact sound.checkNext niter fun same => sound.cursor (pass.trans (congrArg Pass.calling same))
  | leave =>
    obtain ⟨wdogs, left, rfl⟩ := map_eq_some_iff.mp stepped
    obtain ⟨-, rfl⟩ := ite_some_none_eq_some.mp left
    exact ⟨sound.nodup, nofun, sound.place.others Iff.rfl rfl rfl (BitVec.add_zero _).symm rfl⟩
  | start wd ticks =>
    obtain ⟨other, stepped⟩ := ite_none_left_eq_some.mp stepped
    obtain ⟨wdogs, started, rfl⟩ := map_eq_some_iff.mp stepped
    obtain ⟨free, started⟩ := ite_none_left_eq_some.mp started
    obtain rfl := Option.some.inj started
    obtain ⟨moved, priv, pass, now⟩ := @watchdogStart_fields s.wdogs wd _ fun zero => free (.inr zero)
    obtain ⟨nodup, member⟩ := nodup_of_moved sound.nodup moved
    have listed : own ∈ (watchdogStart s.wdogs wd ticks).wdogHead ↔ own ∈ s.wdogs.wdogHead :=
      (member own).trans (or_iff_right (Ne.symm other))
    refine ⟨nodup, fun calling => listed.mpr (sound.cursor (pass.symm.trans calling)), ?_⟩
    refine sound.place.others listed ?_ rfl (now.trans (BitVec.add_zero _).symm) rfl
    change (watchdogStart s.wdogs wd ticks).priv own = _
    rw [priv, Function.update_of_ne (Ne.symm other)]
  | cancel wd =>
    obtain ⟨other, stepped⟩ := ite_none_left_eq_some.mp stepped
    obtain ⟨wdogs, cancelled, rfl⟩ := map_eq_some_iff.mp stepped
    have listed : own ∈ s.wdogs.wdogHead.erase wd ↔ own ∈ s.wdogs.wdogHead :=
      List.mem_erase_of_ne (Ne.symm other)
    rcases step_cancel cancelled with ⟨pass, rfl⟩ | ⟨niter, pass, rfl⟩
    · exact ⟨sound.nodup.erase wd, fun calling => listed.mpr (sound.cursor calling),
        sound.place.others listed rfl rfl (BitVec.add_zero _).symm rfl⟩
    · exact ⟨sound.nodup.erase wd, fun calling => listed.mpr (sound.cursor calling),
        sound.place.others listed rfl rfl (BitVec.add_zero _).symm rfl⟩
  | advance =>
    obtain ⟨idle, stepped⟩ := ite_none_right_eq_some.mp stepped
    exact sound.nanosleepStep idle stepped

theorem slept_ticks {events : List Event} (calm : Calm wdogs) (ran : run (step hz req) (.called wdogs) events = some s)
    (returned : s.place = .returned) :
    (Stage.sec.ticks hz req).toNat + (Stage.nsec.ticks hz req).toNat ≤ s.elapsed := by
  have start : Sound hz req (.called wdogs) := by
    refine ⟨calm.nodup, fun calling => ?_, calm.inactive, rfl, Nat.le_refl 0⟩
    cases calm.idle.symm.trans calling
  have sound := run_invariant (Sound hz req) start ran fun kept => kept.step
  have place := sound.place
  rw [returned] at place
  exact place

theorem expired_then {wd : ℕ} {currentTicks : BitVec 64} {ticks : BitVec 32} (some : ticks ≠ 0)
    (armed : wdogs.priv wd = ⟨currentTicks, currentTicks + ticks.setWidth 64⟩)
    (now : wdogs.ticks = currentTicks + ticks.setWidth 64) : watchdogHasExpired wdogs wd = true := by
  have positive : 0 < ticks.toNat := Nat.pos_of_ne_zero fun zero => some (BitVec.eq_of_toNat_eq zero)
  have delay := ticks.isLt
  have start := currentTicks.isLt
  have due : (currentTicks + ticks.setWidth 64).toNat = (currentTicks.toNat + ticks.toNat) % 2 ^ 64 := by
    rw [BitVec.toNat_add, BitVec.toNat_setWidth, Nat.mod_eq_of_lt (show ticks.toNat < 2 ^ 64 by omega)]
  unfold watchdogHasExpired
  rw [armed, now]
  simp only [BitVec.lt_def, BitVec.le_def, due]
  split
  · exact decide_eq_true (Nat.le_refl _)
  · refine Bool.and_eq_true_iff.mpr ⟨decide_eq_true (Nat.le_refl _), decide_eq_true ?_⟩
    omega

/-- The events of a stage in which the tick interrupt comes when the watchdog is due -/
def Stage.events (hz : ℕ) (req : Timespec w) (stage : Stage) : List Event :=
  [.advance, .advance, .systick (stage.ticks hz req).toNat, .resume, .leave, .advance]

/-- Where the task is after a stage -/
def Stage.after : Stage → Place
  | .sec => .getTicks .nsec
  | .nsec => .delete

/-- No watchdog is active, and nothing is in progress. -/
structure Sleeper.Alone (s : Sleeper) : Prop where
  head : s.wdogs.wdogHead = []
  pass : s.wdogs.pass = .idle
  semaphore : s.semaphore = 0

theorem check_alone (head : wdogs.wdogHead = [own]) (due : watchdogHasExpired wdogs own = true) :
    ∃ timeout : Timeout, timeout.wd = own ∧ watchdogCheckExpired wdogs =
      { wdogs with
        cancelled := fun _ => false
        wdogHead := []
        pass := .calling none
        timeouts := wdogs.timeouts ++ [timeout] } := by
  have same : watchdogHasExpired { wdogs with cancelled := fun _ => false } own = true := due
  refine ⟨⟨own, wdogs.armings own, own ∈ wdogs.wdogHead, false, (wdogs.priv own).endTick⟩, rfl, ?_⟩
  unfold watchdogCheckExpired
  rw [head]
  simp [watchdogCheckNext, watchdogCancel, Cursor.next, Cursor.onwards]
  exact due

theorem resume_end (pass : s.wdogs.pass = .calling none) :
    step hz req s .resume = some { s with wdogs := { s.wdogs with pass := .finished } } := by
  simp [step, Watchdog.step, pass, watchdogCheckNext, Sleeper.checked]

theorem stage_run (stage : Stage) (alone : s.Alone) (place : s.place = .getTicks stage) :
    ∃ next, run (step hz req) s (stage.events hz req) = some next ∧ next.Alone ∧ next.place = stage.after ∧
      next.elapsed = s.elapsed + (stage.ticks hz req).toNat := by
  have some := @Stage.ticks_ne_zero _ hz req stage
  obtain ⟨moved, priv, pass, -⟩ := @watchdogStart_fields s.wdogs own _ some
  let armed : Wdogs := { watchdogStart s.wdogs own (stage.ticks hz req) with ticks := s.wdogs.ticks }
  let late : Wdogs := { armed with ticks := s.wdogs.ticks + BitVec.ofNat 64 (stage.ticks hz req).toNat }
  have head : late.wdogHead = [own] := by
    rw [alone.head] at moved
    exact List.perm_singleton.mp moved
  have due : watchdogHasExpired late own = true := by
    refine @expired_then _ _ s.wdogs.ticks _ some ?_ ?_
    · exact (congrFun priv own).trans (Function.update_self ..)
    · change s.wdogs.ticks + BitVec.ofNat 64 (stage.ticks hz req).toNat = _
      rw [BitVec.ofNat_toNat]
  obtain ⟨timeout, wd, passed⟩ := check_alone head due
  have read : step hz req s .advance = Option.some { s with place := .add stage s.wdogs.ticks } := by
    simp only [step, if_pos alone.pass, nanosleepStep, place]
  have add : step hz req { s with place := .add stage s.wdogs.ticks } .advance =
      Option.some { s with wdogs := armed, place := .lock stage } := by
    simp only [step, if_pos alone.pass, nanosleepStep]
    rfl
  have systick : step hz req { s with wdogs := armed, place := .lock stage } (.systick (stage.ticks hz req).toNat) =
      Option.some ⟨watchdogCheckExpired late, 1, .lock stage, s.elapsed + (stage.ticks hz req).toNat⟩ := by
    have idle : armed.pass = .idle := pass.trans alone.pass
    simp only [step, if_pos idle, Sleeper.systick]
    change Option.some (Sleeper.checked _ (watchdogCheckExpired late)) = _
    rw [passed]
    simp [Sleeper.checked, alone.semaphore, wd, late]
  refine ⟨⟨{ watchdogCheckExpired late with pass := .idle }, 0, stage.after, s.elapsed + (stage.ticks hz req).toNat⟩,
    ?_, ⟨by rw [passed], rfl, rfl⟩, rfl, rfl⟩
  simp only [Stage.events, run_cons, run_nil, read, add, systick, bind_some, passed, resume_end]
  cases stage <;> rfl

theorem called_run (ticks : BitVec 64) :
    ∃ events s, run (step hz req) (.called { Wdogs.boot with ticks := ticks }) events = some s ∧
      s.place = .returned ∧
      s.elapsed = (Stage.sec.ticks hz req).toNat + (Stage.nsec.ticks hz req).toNat := by
  obtain ⟨middle, first, alone, place, waited⟩ := @stage_run _ hz req
    (.called { Wdogs.boot with ticks := ticks }) .sec ⟨rfl, rfl, rfl⟩ rfl
  obtain ⟨last, second, alone, place, slept⟩ := @stage_run _ hz req _ .nsec alone place
  have delete : step hz req last .advance =
      some { last with wdogs := watchdogCancel last.wdogs own, place := .returned } := by
    change last.place = .delete at place
    simp only [step, if_pos alone.pass, nanosleepStep, place]
  refine ⟨Stage.sec.events hz req ++ (Stage.nsec.events hz req ++ [.advance]),
    { last with wdogs := watchdogCancel last.wdogs own, place := .returned }, ?_, rfl, ?_⟩
  · rw [run_append, first, bind_some, run_append, second, bind_some, run_cons, delete]
    rfl
  · change last.elapsed = _
    rw [slept, waited]
    exact congrArg (· + _) (Nat.zero_add _)

end Run

section Sleeps
variable {hz w : ℕ} (divides : hz ∣ ONE_SEC_IN_NSEC) (wide : 32 ≤ w) (request : Request w) (ticks : BitVec 64)
include divides wide

/-- A sleep lasts its time exactly when its ticks fit 32 bits. -/
theorem sleeps_iff : Sleeps hz request ticks ↔ request.seconds * hz < 2 ^ 32 := by
  rw [← request.ticks_iff divides wide]
  constructor
  · intro sleeps
    obtain ⟨events, s, ran, returned, slept⟩ := @called_run _ hz request.timespec ticks
    rw [← slept]
    exact sleeps _ ⟨rfl, List.nodup_nil, List.not_mem_nil⟩ rfl events s ran returned
  · intro enough wdogs calm _ events s ran returned
    exact enough.trans (Nat.cast_le.mpr (slept_ticks calm ran returned))

/-- The clock shows the time of the ticks exactly when they are whole seconds that `time_t` has, or a tick is a
nanosecond, and a task sleeps long enough exactly when the ticks of its seconds have 32 bits. -/
theorem clock_and_sleep_iff :
    (Clocked hz w ticks ↔
      ticks.toNat / hz < 2 ^ (w - 1) ∧ (ticks.toNat % hz = 0 ∨ hz = ONE_SEC_IN_NSEC)) ∧
      (Sleeps hz request ticks ↔ request.seconds * hz < 2 ^ 32) :=
  ⟨clocked_iff divides wide ticks, sleeps_iff divides wide request ticks⟩

end Sleeps

/-- A sleep of one second from the first full second on -/
theorem clock_and_sleep_iff_second :
    Clocked 1000 32 1000 ∧ Sleeps 1000 (.sleep 1 : Request 32) 1000 := by
  obtain ⟨clock, sleep⟩ := @clock_and_sleep_iff 1000 32 (by decide) (by decide) (.sleep 1) 1000
  exact ⟨clock.mpr (by decide), sleep.mpr (by decide)⟩

/-- After one tick of a millisecond the clock shows a nanosecond, and a sleep of 4294968 seconds is one of 704 ticks. -/
theorem clock_shows_ticks :
    clockGettime 1000 .monotonic 1 = .ok (⟨0, 1⟩ : Timespec 32) ∧ secTicks 1000 4294968 = 704 ∧
      ¬ Clocked 1000 32 1 ∧ ¬ Sleeps 1000 (.sleep 4294968 : Request 32) 0 := by
  refine ⟨rfl, by decide, fun clocked => ?_, fun sleeps => ?_⟩
  · exact absurd ((clocked_iff (by decide) (by decide) 1).mp clocked) (by decide)
  · exact absurd ((sleeps_iff (by decide) (by decide) _ 0).mp sleeps) (by decide)

end Phabos.Sleep
