import Phabos.Construction.Drivers.Core

namespace Phabos.Drivers
open Library List

/-- No device but the last one of a list is deferred when the devices are probed in order. -/
def OnlyLastDeferred (c : Core) : List ℕ → Prop
  | device :: next :: rest => c.probe device ≠ - EAGAIN ∧ OnlyLastDeferred (c.turn device) (next :: rest)
  | _ => True

/-- `device_driver_probe_all` returns. It has probed no device twice in a pass, it has made a pass after another one
only when that one probed some device, and each device is where its last probe has put it. -/
def ProbesAll (c : Core) : Prop :=
  ∃ fuel final, deviceDriverProbeAll fuel c = some final ∧
    (final.attempts.map fun attempt => (attempt.pass, attempt.device)).Nodup ∧
    (∀ attempt ∈ final.attempts, 1 < attempt.pass →
      ∃ before ∈ final.attempts, before.pass + 1 = attempt.pass ∧ before.retval = 0) ∧
    ∀ device ∈ c.devices, ∃ last ∈ final.attempts, last.device = device ∧
      (∀ attempt ∈ final.attempts, attempt.device = device → attempt.pass ≤ last.pass) ∧
      (last.retval = 0 ∧ device ∈ final.probedDevices ∨ last.retval = - EAGAIN ∧ device ∈ final.devices ∨
        last.retval ≠ 0 ∧ last.retval ≠ - EAGAIN ∧ device ∉ final.devices)

variable {fuel : ℕ}

variable {made : List Attempt}

variable {retry : Bool}

section Pass
variable {c final : Core} {device : ℕ} {rest : List ℕ}

theorem Core.turn_devices (listed : c.devices = device :: rest) :
    (c.turn device).devices = rest ++ (if c.probe device = - EAGAIN then [device] else []) := by
  unfold Core.turn
  dsimp only
  rw [listed, erase_cons_head]
  split
  · rfl
  · exact (append_nil rest).symm

/-- What a pass has made of the devices that were left in it. -/
structure Passed (c final : Core) (made : List Attempt) (left : List ℕ) : Prop where
  drivers : final.drivers = c.drivers ∧ final.driver = c.driver
  pass : final.pass = c.pass
  attempts : final.attempts = c.attempts ++ made
  devices : made.map Attempt.device = left
  same : ∀ attempt ∈ made, attempt.pass = c.pass
  probed : ∀ attempt ∈ made, attempt.retval = 0 → attempt.device ∈ final.probedDevices
  grows : c.probedDevices ⊆ final.probedDevices
  deferred : final.devices = (made.filter fun attempt => attempt.retval = - EAGAIN).map Attempt.device
  single : final.devices.length ≤ 1

theorem Passed.cons (goes : c.probe device ≠ - EAGAIN) (passed : Passed (c.turn device) final made rest) :
    Passed c final (⟨c.pass, device, c.probe device⟩ :: made) (device :: rest) where
  drivers := passed.drivers
  pass := passed.pass
  attempts := by
    rw [passed.attempts]
    exact append_assoc _ _ _
  devices := congrArg (device :: ·) passed.devices
  same := forall_mem_cons.mpr ⟨rfl, passed.same⟩
  probed := by
    refine forall_mem_cons.mpr ⟨fun succeeds => passed.grows ?_, passed.probed⟩
    change device ∈ if c.probe device = 0 then c.probedDevices ++ [device] else c.probedDevices
    rw [if_pos succeeds]
    exact mem_append_right _ mem_cons_self
  grows := by
    refine List.Subset.trans (fun other there => ?_) passed.grows
    change other ∈ if c.probe device = 0 then c.probedDevices ++ [device] else c.probedDevices
    split
    · exact mem_append_left _ there
    · exact there
  deferred := by
    rw [filter_cons_of_neg (by simpa using goes)]
    exact passed.deferred
  single := passed.single

theorem Passed.last (listed : c.devices = [device]) :
    Passed c (c.turn device) [⟨c.pass, device, c.probe device⟩] [device] where
  drivers := ⟨rfl, rfl⟩
  pass := rfl
  attempts := rfl
  devices := rfl
  same := forall_mem_singleton.mpr rfl
  probed := by
    refine forall_mem_singleton.mpr fun succeeds => ?_
    change device ∈ if c.probe device = 0 then c.probedDevices ++ [device] else c.probedDevices
    rw [if_pos succeeds]
    exact mem_append_right _ mem_cons_self
  grows := by
    intro other there
    change other ∈ if c.probe device = 0 then c.probedDevices ++ [device] else c.probedDevices
    split
    · exact mem_append_left _ there
    · exact there
  deferred := by
    rw [Core.turn_devices listed, filter_singleton]
    by_cases defers : c.probe device = - EAGAIN
    · simp [defers]
    · simp [defers]
  single := by
    rw [Core.turn_devices listed]
    split <;> simp

theorem probeDevices_passes (retry : Bool) (listed : c.devices = device :: rest) (distinct : (device :: rest).Nodup)
    (deferred : OnlyLastDeferred c (device :: rest)) (enough : rest.length + 2 ≤ fuel) :
    ∃ made final, probeDevices fuel retry c (some device) rest.head? =
        some (retry || made.any fun attempt => attempt.retval = 0, final) ∧
      Passed c final made (device :: rest) := by
  induction rest generalizing c device retry fuel with
  | nil =>
    obtain ⟨fuel, rfl⟩ := Nat.exists_eq_add_of_le' enough
    exact ⟨_, _, by simp [probeDevices], Passed.last listed⟩
  | cons next rest ih =>
    obtain ⟨fuel, rfl⟩ := Nat.exists_eq_add_of_le' (Nat.le_of_add_left_le enough : 1 ≤ fuel)
    have left : (c.turn device).devices = next :: rest := by
      rw [Core.turn_devices listed, if_neg deferred.1, append_nil]
    have cursor : Cursor.next (c.turn device).devices (some next) = rest.head? := by
      rw [left]
      exact Cursor.next_first
    obtain ⟨made, final, passes, passed⟩ := ih (retry || decide (c.probe device = 0)) left
      (nodup_cons.mp distinct).2 deferred.2 (by simpa using enough)
    refine ⟨_, final, ?_, passed.cons deferred.1⟩
    change probeDevices fuel _ (c.turn device) (some next) (Cursor.next (c.turn device).devices (some next)) = _
    rw [cursor, passes, Bool.or_assoc]
    rfl

theorem probeDevices_attempts {iter niter : Option ℕ} {result : Bool × Core}
    (ran : probeDevices fuel retry c iter niter = some result) :
    ∃ made, result.2.attempts = c.attempts ++ made ∧ ∀ attempt ∈ made, attempt.pass = c.pass := by
  induction fuel generalizing c retry iter niter with
  | zero => cases ran
  | succ fuel ih =>
    cases iter with
    | none =>
      obtain rfl := Option.some.inj ran
      exact ⟨[], (append_nil _).symm, nofun⟩
    | some device =>
      obtain ⟨made, attempts, same⟩ := ih ran
      refine ⟨⟨c.pass, device, c.probe device⟩ :: made, ?_, forall_mem_cons.mpr ⟨rfl, same⟩⟩
      rw [attempts]
      exact append_assoc _ _ _

theorem probeDevices_reaches {again : ℕ} {before after : List ℕ} {result : Bool × Core}
    (listed : c.devices = before ++ device :: after) (distinct : c.devices.Nodup) (later : again ∈ after)
    (ran : probeDevices fuel retry c (some device) after.head? = some result) :
    ∃ made, result.2.attempts = c.attempts ++ made ∧
      ∃ attempt ∈ made, attempt.pass = c.pass ∧ attempt.device = again := by
  induction fuel generalizing c retry device before after with
  | zero => cases ran
  | succ fuel ih =>
    rw [listed] at distinct
    have apart := nodup_middle.mp distinct
    obtain ⟨fresh, others⟩ := nodup_cons.mp apart
    cases after with
    | nil => cases later
    | cons next after =>
      -- the list after the turn: the device is off the list, or at its end
      obtain ⟨tail, left, kept⟩ : ∃ tail, (c.turn device).devices = before ++ next :: (after ++ tail) ∧
          (before ++ next :: (after ++ tail)).Nodup := by
        have erased : c.devices.erase device = before ++ next :: after := by
          rw [listed, erase_append_right _ (fun there => fresh (mem_append_left _ there)),
            erase_cons_head]
        by_cases defers : c.probe device = - EAGAIN
        · refine ⟨[device], ?_, ?_⟩
          · simp [Core.turn, erased, defers]
          · rw [← cons_append, ← append_assoc, ← concat_eq_append]
            exact others.concat fresh
        · refine ⟨[], ?_, ?_⟩
          · simp [Core.turn, erased, defers]
          · rwa [append_nil]
      have missing : next ∉ before := fun there =>
        (nodup_append.mp kept).2.2 next there next mem_cons_self rfl
      have ran : probeDevices fuel _ (c.turn device) (some next)
          (Cursor.next (c.turn device).devices (some next)) = some result := ran
      rw [left, Cursor.next_middle missing] at ran
      have longer (made : List Attempt) : (c.turn device).attempts ++ made =
          c.attempts ++ (⟨c.pass, device, c.probe device⟩ :: made) := append_assoc _ _ _
      rcases mem_cons.mp later with rfl | later
      · cases fuel with
        | zero => cases ran
        | succ fuel =>
          have ran : probeDevices fuel _ ((c.turn device).turn again) _ _ = some result := ran
          obtain ⟨made, attempts, -⟩ := probeDevices_attempts ran
          refine ⟨⟨c.pass, device, c.probe device⟩ :: ⟨c.pass, again, (c.turn device).probe again⟩ :: made, ?_,
            _, mem_cons_of_mem _ mem_cons_self, rfl, rfl⟩
          rw [attempts, ← longer]
          exact append_assoc _ _ _
      · obtain ⟨made, attempts, attempt, there, found⟩ := ih left (left ▸ kept) (mem_append_left _ later) ran
        exact ⟨_, attempts.trans (longer made), attempt, mem_cons_of_mem _ there, found⟩

/-- A pass that defers a device before the last one probes a device twice. -/
theorem probeDevices_repeats {result : Bool × Core} (listed : c.devices = device :: rest)
    (distinct : (device :: rest).Nodup) (deferred : ¬ OnlyLastDeferred c (device :: rest))
    (ran : probeDevices fuel retry c (some device) rest.head? = some result) :
    ¬ (result.2.attempts.map fun attempt => (attempt.pass, attempt.device)).Nodup := by
  induction rest generalizing c device retry fuel with
  | nil => exact absurd trivial deferred
  | cons next rest ih =>
    cases fuel with
    | zero => cases ran
    | succ fuel =>
      obtain ⟨fresh, others⟩ := nodup_cons.mp distinct
      have left := Core.turn_devices listed
      have ran : probeDevices fuel _ (c.turn device) (some next)
          (Cursor.next (c.turn device).devices (some next)) = some result := ran
      rw [left, cons_append, Cursor.next_first] at ran
      by_cases defers : c.probe device = - EAGAIN
      · rw [if_pos defers] at left ran
        have kept : (c.turn device).devices.Nodup := by
          rw [left, ← concat_eq_append]
          exact others.concat fresh
        obtain ⟨made, attempts, attempt, there, pass, same⟩ := probeDevices_reaches (left.trans (nil_append _).symm) kept
          (mem_append_right _ (mem_singleton_self device)) ran
        rw [attempts, map_append, nodup_append]
        intro unique
        have here : (c.pass, device) ∈ (c.turn device).attempts.map fun attempt => (attempt.pass, attempt.device) :=
          mem_map.mpr ⟨⟨c.pass, device, c.probe device⟩,
            mem_append_right _ (mem_singleton_self _), rfl⟩
        refine unique.2.2 _ here _ (mem_map_of_mem there) ?_
        rw [pass, same]
        rfl
      · rw [if_neg defers, append_nil] at left ran
        exact ih left others (fun only => deferred ⟨defers, only⟩) ran

end Pass

variable {final : Core}

section Passes
variable {c : Core}

theorem probePasses_attempts {fuel passes : ℕ} (ran : probePasses fuel passes retry c = some final) :
    c.attempts <+: final.attempts := by
  induction passes generalizing c retry with
  | zero => cases ran
  | succ passes ih =>
    unfold probePasses at ran
    split at ran
    · obtain ⟨⟨retry, middle⟩, passed, ran⟩ := Option.bind_eq_some_iff.mp ran
      obtain ⟨made, attempts, -⟩ := probeDevices_attempts passed
      exact (attempts ▸ prefix_append _ _ : c.attempts <+: middle.attempts).trans (ih ran)
    · obtain rfl := Option.some.inj ran
      exact prefix_rfl

theorem probePasses_succ {device : ℕ} {rest : List ℕ} (listed : c.devices = device :: rest) (fuel passes : ℕ) :
    probePasses fuel (passes + 1) true c =
      (probeDevices fuel false c.nextPass (some device) rest.head?).bind fun done =>
        probePasses fuel passes done.1 done.2 := by
  have cursor : Cursor.next c.devices (some device) = rest.head? := by
    rw [listed]
    exact Cursor.next_first
  have pending : c.devices ≠ [] := by
    rw [listed]
    exact cons_ne_nil _ _
  rw [probePasses, if_pos ⟨pending, rfl⟩, ← cursor]
  simp only [listed, List.head?_cons]

theorem deviceDriverProbeAll_first {device : ℕ} {rest : List ℕ} (listed : c.devices = device :: rest)
    (ran : deviceDriverProbeAll fuel c = some final) :
    ∃ retry middle, probeDevices fuel false c.nextPass (some device) rest.head? = some (retry, middle) ∧
      middle.attempts <+: final.attempts := by
  cases fuel with
  | zero => cases ran
  | succ fuel =>
    unfold deviceDriverProbeAll at ran
    rw [probePasses_succ listed] at ran
    obtain ⟨⟨retry, middle⟩, passed, ran⟩ := Option.bind_eq_some_iff.mp ran
    exact ⟨retry, middle, passed, probePasses_attempts ran⟩

theorem onlyLastDeferred_single (c : Core) {devices : List ℕ} (single : devices.length ≤ 1) :
    OnlyLastDeferred c devices := by
  match devices, single with
  | [], _ => trivial
  | [_], _ => trivial

/-- A device that is probed in a pass is where the probe puts it. -/
def Core.Placed (c : Core) (last : Attempt) : Prop :=
  last.retval = 0 ∧ last.device ∈ c.probedDevices ∨ last.retval = - EAGAIN ∧ last.device ∈ c.devices ∨
    last.retval ≠ 0 ∧ last.retval ≠ - EAGAIN ∧ last.device ∉ c.devices

theorem Passed.unique {left : List ℕ} (passed : Passed c final made left) (distinct : left.Nodup) :
    (made.map fun attempt => (attempt.pass, attempt.device)).Nodup := by
  have devices := passed.devices ▸ distinct
  refine List.Nodup.of_map Prod.snd ?_
  rwa [map_map]

theorem Passed.placed {left : List ℕ} (passed : Passed c final made left) (distinct : left.Nodup) {attempt : Attempt}
    (there : attempt ∈ made) : final.Placed attempt := by
  have listed (device : ℕ) : device ∈ final.devices ↔ ∃ other ∈ made, other.retval = - EAGAIN ∧ other.device = device := by
    rw [passed.deferred, mem_map]
    simp [and_assoc]
  by_cases defers : attempt.retval = - EAGAIN
  · exact .inr (.inl ⟨defers, (listed _).mpr ⟨attempt, there, defers, rfl⟩⟩)
  · by_cases succeeds : attempt.retval = 0
    · exact .inl ⟨succeeds, passed.probed attempt there succeeds⟩
    · refine .inr (.inr ⟨succeeds, defers, fun still => ?_⟩)
      obtain ⟨other, made', deferred, same⟩ := (listed _).mp still
      have equal := inj_on_of_nodup_map (passed.devices.symm ▸ distinct) made' there same
      exact defers (equal ▸ deferred)

/-- The passes end without devices or without a retry. -/
theorem probePasses_stops {fuel passes : ℕ} (stops : c.devices = [] ∨ retry = false) :
    probePasses fuel (passes + 1) retry c = some c := by
  refine if_neg ?_
  rintro ⟨pending, goes⟩
  rcases stops with none | fails
  · exact pending none
  · rw [fails] at goes
    cases goes

theorem probePasses_passes {device : ℕ} {rest : List ℕ} (listed : c.devices = device :: rest)
    (distinct : (device :: rest).Nodup) (deferred : OnlyLastDeferred c.nextPass (device :: rest))
    (enough : rest.length + 2 ≤ fuel) (passes : ℕ) :
    ∃ made middle, Passed c.nextPass middle made (device :: rest) ∧
      probePasses fuel (passes + 1) true c =
        probePasses fuel passes (made.any fun attempt => attempt.retval = 0) middle := by
  obtain ⟨made, middle, ran, passed⟩ := probeDevices_passes (c := c.nextPass) false listed distinct deferred enough
  refine ⟨made, middle, passed, ?_⟩
  rw [probePasses_succ listed, ran]
  rfl

theorem Passed.stays {before final : Core} {device : ℕ} (passed : Passed before final made [device])
    (single : c.devices = [device]) (probed : before.probedDevices = c.probedDevices) {last : Attempt}
    (other : last.device ≠ device) (placed : c.Placed last) : final.Placed last := by
  rcases placed with ⟨succeeds, there⟩ | ⟨-, there⟩ | ⟨fails, goes, -⟩
  · exact .inl ⟨succeeds, passed.grows (probed ▸ there)⟩
  · rw [single] at there
    exact absurd (mem_singleton.mp there) other
  · refine .inr (.inr ⟨fails, goes, fun still => other ?_⟩)
    rw [passed.deferred] at still
    obtain ⟨attempt, kept, same⟩ := mem_map.mp still
    have reached : attempt.device ∈ made.map Attempt.device := mem_map_of_mem (mem_of_mem_filter kept)
    rw [passed.devices] at reached
    exact same.symm.trans (mem_singleton.mp reached)

end Passes

theorem Passed.probesAll {c : Core} (listed : c.pass = 0 ∧ c.attempts = [])
    (passed : Passed c.nextPass final made c.devices) (distinct : c.devices.Nodup)
    (ran : deviceDriverProbeAll fuel c = some final) : ProbesAll c := by
  have attempts : final.attempts = made := by
    rw [passed.attempts]
    exact (congrArg (· ++ made) listed.2).trans (nil_append made)
  have first (attempt) (there : attempt ∈ made) : attempt.pass = 1 :=
    (passed.same attempt there).trans (congrArg (· + 1) listed.1)
  refine ⟨fuel, final, ran, attempts ▸ passed.unique distinct, fun attempt there later => ?_, fun device there => ?_⟩
  · rw [attempts] at there
    have pass := first attempt there
    omega
  · rw [← passed.devices] at there
    obtain ⟨last, there, same⟩ := mem_map.mp there
    rw [attempts]
    refine ⟨last, there, same, fun attempt other _ => ?_, same ▸ passed.placed distinct there⟩
    exact Nat.le_of_eq ((first attempt other).trans (first last there).symm)

theorem Passed.probesAll_again {middle final : Core} {made again : List Attempt} {device : ℕ} {c : Core}
    (listed : c.pass = 0 ∧ c.attempts = []) (passed : Passed c.nextPass middle made c.devices)
    (distinct : c.devices.Nodup) (single : middle.devices = [device])
    (succeeded : ∃ attempt ∈ made, attempt.retval = 0) (last : Passed middle.nextPass final again [device])
    (ran : deviceDriverProbeAll fuel c = some final) : ProbesAll c := by
  have attempts : final.attempts = made ++ again := by
    have early : middle.nextPass.attempts = made :=
      passed.attempts.trans ((congrArg (· ++ made) listed.2).trans (nil_append made))
    rw [last.attempts, early]
  have first (attempt) (there : attempt ∈ made) : attempt.pass = 1 :=
    (passed.same attempt there).trans (congrArg (· + 1) listed.1)
  have second (attempt) (there : attempt ∈ again) : attempt.pass = 2 :=
    (last.same attempt there).trans (congrArg (· + 1) (passed.pass.trans (congrArg (· + 1) listed.1)))
  have only (attempt) (there : attempt ∈ again) : attempt.device = device := by
    have reached := mem_map_of_mem (f := Attempt.device) there
    rw [last.devices] at reached
    exact mem_singleton.mp reached
  refine ⟨fuel, final, ran, ?_, fun attempt there later => ?_, fun pending there => ?_⟩
  · rw [attempts, map_append, nodup_append]
    refine ⟨passed.unique distinct, last.unique (nodup_singleton device), fun one before two after same => ?_⟩
    obtain ⟨early, there, rfl⟩ := mem_map.mp before
    obtain ⟨late, here, rfl⟩ := mem_map.mp after
    have passes := congrArg Prod.fst same
    dsimp only at passes
    rw [first early there, second late here] at passes
    cases passes
  · rw [attempts] at there ⊢
    rcases mem_append.mp there with early | late
    · rw [first attempt early] at later
      omega
    · obtain ⟨before, early, zero⟩ := succeeded
      exact ⟨before, mem_append_left _ early, by rw [first before early, second attempt late], zero⟩
  · rw [attempts]
    by_cases here : pending = device
    · have reached : device ∈ again.map Attempt.device := last.devices ▸ mem_singleton_self device
      obtain ⟨attempt, late, same⟩ := mem_map.mp reached
      refine ⟨attempt, mem_append_right _ late, same.trans here.symm, fun other there _ => ?_, ?_⟩
      · rw [second attempt late]
        rcases mem_append.mp there with early | late
        · rw [first other early]
          decide
        · exact Nat.le_of_eq (second other late)
      · exact here ▸ same ▸ last.placed (nodup_singleton device) late
    · rw [← passed.devices] at there
      obtain ⟨attempt, early, same⟩ := mem_map.mp there
      have differs : attempt.device ≠ device := fun equal => here (same.symm.trans equal)
      refine ⟨attempt, mem_append_left _ early, same, fun other there equal => ?_, ?_⟩
      · rw [first attempt early]
        rcases mem_append.mp there with early | late
        · exact Nat.le_of_eq (first other early)
        · exact absurd (equal.symm.trans (only other late)) here
      · exact same ▸ last.stays single rfl differs (passed.placed distinct early)

/-- The probing returns with each device probed at most once in a pass, with no pass in vain and each device in its
place, if and only if no device but the last one of the list is deferred when the devices are probed in order. -/
theorem device_driver_probe_all_terminates (drivers : List Driver) (driver : ℕ → Option (List UInt8))
    (devices probedDevices : List ℕ) (distinct : devices.Nodup) :
    ProbesAll (.pending drivers driver devices probedDevices) ↔
      OnlyLastDeferred (Core.pending drivers driver devices probedDevices).nextPass devices := by
  generalize started : Core.pending drivers driver devices probedDevices = c
  have listed : c.devices = devices ∧ c.pass = 0 ∧ c.attempts = [] := by
    rw [← started]
    exact ⟨rfl, rfl, rfl⟩
  obtain ⟨listed, pass, attempts⟩ := listed
  unfold ProbesAll
  rw [listed]
  cases devices with
  | nil =>
    refine iff_of_true ⟨1, c, probePasses_stops (.inl listed), ?_, ?_, nofun⟩ trivial
    · rw [attempts]
      exact List.nodup_nil
    · rw [attempts]
      exact nofun
  | cons device rest =>
    constructor
    · rintro ⟨fuel, final, ran, unique, -⟩
      obtain ⟨retry, middle, passed, before⟩ := deviceDriverProbeAll_first listed ran
      by_contra deferred
      refine probeDevices_repeats (c := c.nextPass) listed distinct deferred passed ?_
      exact (before.sublist.map _).nodup unique
    · intro deferred
      obtain ⟨made, middle, passed, goes⟩ :=
        probePasses_passes listed distinct deferred (Nat.le_succ (rest.length + 2)) (rest.length + 2)
      rw [← listed] at passed distinct
      have whole : deviceDriverProbeAll (rest.length + 3) c = _ := goes
      by_cases stops : middle.devices = [] ∨ (made.any fun attempt => attempt.retval = 0) = false
      · rw [probePasses_stops stops] at whole
        exact listed ▸ passed.probesAll ⟨pass, attempts⟩ distinct whole
      · rw [not_or, Bool.not_eq_false] at stops
        obtain ⟨left, succeeded⟩ := stops
        obtain ⟨last, single⟩ := List.length_eq_one_iff.mp
          (Nat.le_antisymm passed.single (List.length_pos_iff.mpr left))
        obtain ⟨again, final, late, goes⟩ := probePasses_passes single (List.nodup_singleton last)
          (onlyLastDeferred_single _ (Nat.le_refl 1)) (by rw [List.length_nil]; omega : _ ≤ rest.length + 3) (rest.length + 1)
        rw [succeeded, goes] at whole
        have ends : final.devices = [] ∨ (again.any fun attempt => attempt.retval = 0) = false := by
          obtain ⟨attempt, rfl⟩ := List.length_eq_one_iff.mp
            ((List.length_map _).symm.trans (congrArg List.length late.devices))
          by_cases zero : attempt.retval = 0
          · left
            rw [late.deferred]
            simp [zero, EAGAIN]
          · right
            simp [zero]
        rw [probePasses_stops ends] at whole
        have success : ∃ attempt ∈ made, attempt.retval = 0 := by simpa using succeeded
        exact listed ▸ passed.probesAll_again ⟨pass, attempts⟩ distinct single success late whole

/-- One device fails, one is probed, and one is ready after two probes of others and a deferred one of its own. -/
def slowDriver : Driver where
  name := [0x64]
  probe := some fun attempts device =>
    if device = 3 ∧ attempts.length < 3 then - EAGAIN else if device = 1 then - EINVAL else 0

theorem device_driver_probe_all_terminates_slow :
    ProbesAll (.pending [slowDriver] (fun _ => some [0x64]) [1, 2, 3] []) :=
  (device_driver_probe_all_terminates [slowDriver] (fun _ => some [0x64]) [1, 2, 3] [] (by decide)).mpr
    ⟨by decide, by decide, trivial⟩

/-- A driver that is never ready -/
def deferringDriver : Driver := ⟨[0x64], some fun _ _ => - EAGAIN⟩

theorem probeDevices_defers {c : Core} (drivers : c.drivers = [deferringDriver])
    (driver : ∀ device, c.driver device = some [0x64]) {first second : ℕ} (differs : first ≠ second)
    (listed : c.devices = [first, second]) (fuel : ℕ) (retry : Bool) :
    probeDevices fuel retry c (some first) (some second) = none := by
  induction fuel generalizing c first second retry with
  | zero => rfl
  | succ fuel ih =>
    have defers : c.probe first = - EAGAIN := by
      unfold Core.probe deviceProbe
      rw [drivers, driver]
      rfl
    have turned : (c.turn first).devices = [second, first] := by
      rw [Core.turn_devices listed, if_pos defers]
      rfl
    have cursor : Cursor.next (c.turn first).devices (some second) = some first := by
      rw [turned]
      exact Cursor.next_first
    change probeDevices fuel _ (c.turn first) (some second) (Cursor.next (c.turn first).devices (some second)) = none
    rw [cursor]
    exact ih (c := c.turn first) drivers driver differs.symm turned _

/-- With two devices that are never ready the probing does not return. -/
theorem device_driver_probe_all_loops :
    (∀ fuel, deviceDriverProbeAll fuel (.pending [deferringDriver] (fun _ => some [0x64]) [1, 2] []) = none) ∧
      ¬ ProbesAll (.pending [deferringDriver] (fun _ => some [0x64]) [1, 2] []) := by
  have loops (fuel : ℕ) :
      deviceDriverProbeAll fuel (.pending [deferringDriver] (fun _ => some [0x64]) [1, 2] []) = none := by
    cases fuel with
    | zero => rfl
    | succ fuel =>
      unfold deviceDriverProbeAll
      rw [@probePasses_succ (.pending [deferringDriver] (fun _ => some [0x64]) [1, 2] []) 1 [2] rfl]
      have pass := probeDevices_defers (c := (Core.pending [deferringDriver] (fun _ => some [0x64]) [1, 2] []).nextPass)
        rfl (fun _ => rfl) (by decide : 1 ≠ 2) rfl (fuel + 1) false
      rw [List.head?_cons, pass]
      rfl
  refine ⟨loops, ?_⟩
  rintro ⟨fuel, final, ran, -⟩
  rw [loops fuel] at ran
  cases ran

end Phabos.Drivers
