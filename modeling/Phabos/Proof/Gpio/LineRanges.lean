import Phabos.Construction.Gpio.Tca64xx
import Phabos.Proof.Kernel.WatchdogOrder

namespace Phabos.Gpio
open Library Watchdog Function List Option

def GpioDevice.start (dev : GpioDevice) : ℕ := dev.base.toNat

/-- The number after the last line of a controller -/
def GpioDevice.upTo (dev : GpioDevice) : ℕ := dev.base.toNat + dev.count.toNat

def GpioDevice.Covers (dev : GpioDevice) (line : ℕ) : Prop := dev.start ≤ line ∧ line < dev.upTo

/-- The ranges of the registered controllers -/
def Core.ranges (s : Core) : List GpioDevice := s.devices.map s.device

/-- The ranges are disjoint and sorted, their lengths add up to the line count, and a line is found at the one
controller that has it. -/
structure Core.Resolved (s : Core) : Prop where
  disjoint : s.ranges.Pairwise fun one other => one.upTo ≤ other.start ∨ other.upTo ≤ one.start
  sorted : s.ranges.Pairwise fun one other => one.start ≤ other.start
  lineCount : s.lineCount.toNat = (s.ranges.map fun dev => dev.count.toNat).sum
  found : ∀ line gpio, gpioGetDevice s line = some gpio ↔ gpio ∈ s.devices ∧ (s.device gpio).Covers line.toNat
  unique : ∀ line, ∀ one ∈ s.devices, ∀ other ∈ s.devices,
    (s.device one).Covers line → (s.device other).Covers line → one = other

/-- The lines where `gpio_find_base` may begin a range -/
def starts (ranges : List GpioDevice) : List ℕ := 0 :: ranges.map GpioDevice.upTo

/-- No controller has a line of the range. -/
def Free (ranges : List GpioDevice) (start count : ℕ) : Prop :=
  ∀ dev ∈ ranges, dev.upTo ≤ start ∨ start + count ≤ dev.start

/-- The first and the last line of the range are free. -/
def EndsFree (ranges : List GpioDevice) (start count : ℕ) : Prop :=
  ∀ dev ∈ ranges, ¬dev.Covers start ∧ ¬dev.Covers (start + count - 1)

/-- The range has a controller inside, with free lines on both sides. -/
def Hidden (ranges : List GpioDevice) (start count : ℕ) : Prop :=
  EndsFree ranges start count ∧ ¬Free ranges start count

/-- The comparator sees the order of a new range and those that it is put between. -/
structure Comparable (ranges : List GpioDevice) (start : ℕ) : Prop where
  earlier : ∀ dev ∈ ranges, dev.start ≤ start → start - dev.start < 2 ^ 31
  later : ∀ dev ∈ ranges.find? (fun dev => start < dev.start), dev.start - start ≤ 2 ^ 31

/-- The lowest place for a range of a number of lines -/
structure FirstFree (ranges : List GpioDevice) (count start : ℕ) : Prop where
  known : start ∈ starts ranges
  free : Free ranges start count
  lowest : ∀ lower ∈ starts ranges, lower < start → ¬Free ranges lower count

/-- A range has lines and ends below the last one. An explicit range is not hidden, an automatic one is not hidden at
any place below the first free one, and the comparator sees where a free range belongs. -/
def Regular (s : Core) (r : Registration) : Prop :=
  0 < r.count.toNat ∧
    if r.base ≠ - 1 then
      r.base.toNat + r.count.toNat < 2 ^ 32 ∧ ¬Hidden s.ranges r.base.toNat r.count.toNat ∧
        (Free s.ranges r.base.toNat r.count.toNat → Comparable s.ranges r.base.toNat)
    else
      ∃ start, FirstFree s.ranges r.count.toNat start ∧ start + r.count.toNat < 2 ^ 32 ∧
        Comparable s.ranges start ∧ ∀ lower ∈ starts s.ranges, lower < start → ¬Hidden s.ranges lower r.count.toNat

section Ranges
variable {ranges : List GpioDevice} {dev : GpioDevice} {start : ℕ}

theorem covers_iff (fits : dev.upTo < 2 ^ 32) (line : BitVec 32) : dev.covers line = true ↔ dev.Covers line.toNat := by
  have upTo : (dev.base + dev.count).toNat = dev.upTo := by
    rw [BitVec.toNat_add]
    exact Nat.mod_eq_of_lt fits
  simp only [GpioDevice.covers, Bool.and_eq_true, decide_eq_true_eq, BitVec.le_def, BitVec.lt_def, upTo]
  rfl

theorem toNat_last {base count : BitVec 32} (positive : 0 < count.toNat) (fits : base.toNat + count.toNat < 2 ^ 32) :
    (base + count - 1).toNat = base.toNat + count.toNat - 1 := by
  rw [BitVec.toNat_sub, BitVec.toNat_add]
  change (2 ^ 32 - 1 + (base.toNat + count.toNat) % 2 ^ 32) % 2 ^ 32 = _
  omega

theorem findBaseNext_cases {count base : BitVec 32} (fits : dev.upTo < 2 ^ 32) (positive : 0 < count.toNat)
    (bound : base.toNat + count.toNat < 2 ^ 32) :
    ((dev.Covers base.toNat ∨ dev.Covers (base.toNat + count.toNat - 1)) ∧
        (findBaseNext count base dev).toNat = dev.upTo) ∨
      (¬dev.Covers base.toNat ∧ ¬dev.Covers (base.toNat + count.toNat - 1)) ∧ findBaseNext count base dev = base := by
  have ends : (dev.covers base || dev.covers (base + count - 1)) = true ↔
      dev.Covers base.toNat ∨ dev.Covers (base.toNat + count.toNat - 1) := by
    rw [Bool.or_eq_true, covers_iff fits, covers_iff fits, toNat_last positive bound]
  unfold findBaseNext
  dsimp only
  split
  · rename_i taken
    refine .inl ⟨ends.mp taken, ?_⟩
    rw [BitVec.toNat_add]
    exact Nat.mod_eq_of_lt fits
  · rename_i free
    exact .inr ⟨not_or.mp fun taken => free (ends.mpr taken), rfl⟩

/-- The loop stays on places for a range, does not go beyond the first free one, and leaves no end point taken. -/
theorem findBase_loop {count : BitVec 32} (ordered : ranges.Pairwise fun one other => one.upTo ≤ other.start)
    (fits : ∀ dev ∈ ranges, dev.upTo < 2 ^ 32) (positive : 0 < count.toNat)
    (free : Free ranges start count.toNat) (bound : start + count.toNat < 2 ^ 32)
    (passed rest : List GpioDevice) (base : BitVec 32) (all : ranges = passed ++ rest)
    (known : base.toNat ∈ starts ranges) (low : base.toNat ≤ start) (ends : EndsFree passed base.toNat count.toNat) :
    (rest.foldl (findBaseNext count) base).toNat ∈ starts ranges ∧
      (rest.foldl (findBaseNext count) base).toNat ≤ start ∧
      EndsFree ranges (rest.foldl (findBaseNext count) base).toNat count.toNat := by
  induction rest generalizing passed base with
  | nil =>
    rw [append_nil] at all
    exact ⟨known, low, all ▸ ends⟩
  | cons dev rest ih =>
    have there : dev ∈ ranges := by
      rw [all]
      exact mem_append_right _ mem_cons_self
    have next : ranges = (passed ++ [dev]) ++ rest := by
      rw [all, append_assoc]
      rfl
    rw [foldl_cons]
    have below : base.toNat + count.toNat < 2 ^ 32 := by omega
    rcases findBaseNext_cases (fits dev there) positive below with
      ⟨taken, moved⟩ | ⟨untaken, stays⟩
    · refine ih (passed ++ [dev]) _ next ?_ ?_ ?_
      · rw [moved]
        exact mem_cons_of_mem _ (mem_map_of_mem there)
      · have apart := free dev there
        rw [moved]
        unfold GpioDevice.Covers at taken
        omega
      · intro other before
        rw [moved]
        have below : other.upTo ≤ dev.upTo := by
          rcases mem_append.mp before with early | last
          · have order := (pairwise_append.mp (all ▸ ordered)).2.2 other early dev mem_cons_self
            exact Nat.le_trans order (Nat.le_add_right _ _)
          · rw [mem_singleton.mp last]
        unfold GpioDevice.Covers
        omega
    · rw [stays]
      refine ih (passed ++ [dev]) base next known low fun other before => ?_
      rcases mem_append.mp before with early | last
      · exact ends other early
      · rw [mem_singleton.mp last]
        exact untaken

theorem findBase_eq {count : BitVec 32} (ordered : ranges.Pairwise fun one other => one.upTo ≤ other.start)
    (fits : ∀ dev ∈ ranges, dev.upTo < 2 ^ 32) (positive : 0 < count.toNat) (firstFree : FirstFree ranges count.toNat start)
    (bound : start + count.toNat < 2 ^ 32)
    (seen : ∀ lower ∈ starts ranges, lower < start → ¬Hidden ranges lower count.toNat) :
    (ranges.foldl (findBaseNext count) 0).toNat = start := by
  obtain ⟨known, low, ends⟩ := findBase_loop ordered fits positive firstFree.free bound [] ranges 0 rfl
    mem_cons_self (Nat.zero_le _) nofun
  by_contra differs
  have lower := Nat.lt_of_le_of_ne low differs
  exact seen _ known lower ⟨ends, firstFree.lowest _ known lower⟩

theorem sum_counts_le (ordered : ranges.Pairwise fun one other => one.upTo ≤ other.start) {low high : ℕ}
    (above : ∀ dev ∈ ranges, low ≤ dev.start) (below : ∀ dev ∈ ranges, dev.upTo ≤ high) (bounds : low ≤ high) :
    low + (ranges.map fun dev => dev.count.toNat).sum ≤ high := by
  induction ranges generalizing low with
  | nil => exact bounds
  | cons dev rest ih =>
    obtain ⟨first, ordered⟩ := pairwise_cons.mp ordered
    have later := ih ordered first (fun other there => below other (mem_cons_of_mem _ there))
      (below dev mem_cons_self)
    have early := above dev mem_cons_self
    have length : dev.upTo = dev.start + dev.count.toNat := rfl
    rw [map_cons, sum_cons]
    omega

theorem gpioCompare_neg_iff (device : ℕ → GpioDevice) (gpio1 gpio2 : ℕ) :
    gpioCompare device gpio1 gpio2 < 0 ↔
      2 ^ 31 ≤ (2 ^ 32 - (device gpio2).start + (device gpio1).start) % 2 ^ 32 := by
  unfold gpioCompare GpioDevice.start
  rw [BitVec.toInt_eq_toNat_cond, BitVec.toNat_sub]
  split <;> omega

end Ranges

section Registrations
variable {s next : Core} {gpio : ℕ}

/-- What holds between the registrations. -/
structure Core.Sound (s : Core) : Prop where
  positives : ∀ dev ∈ s.ranges, 0 < dev.count.toNat
  fits : ∀ dev ∈ s.ranges, dev.upTo < 2 ^ 32
  ordered : s.ranges.Pairwise fun one other => one.upTo ≤ other.start
  lineCount : s.lineCount.toNat = (s.ranges.map fun dev => dev.count.toNat).sum

/-- A line is found at the controller that covers it. -/
theorem gpioGetDevice_eq_some (sound : s.Sound) (line : BitVec 32) :
    gpioGetDevice s line = some gpio ↔ gpio ∈ s.devices ∧ (s.device gpio).Covers line.toNat := by
  have tested : ∀ gpio ∈ s.devices, (s.device gpio).covers line = true ↔ (s.device gpio).Covers line.toNat :=
    fun gpio there => covers_iff (sound.fits _ (mem_map_of_mem there)) line
  constructor
  · intro found
    have there := List.mem_of_find?_eq_some found
    have passes := List.find?_some (p := fun gpio => (s.device gpio).covers line) found
    exact ⟨there, (tested gpio there).mp passes⟩
  · rintro ⟨there, covers⟩
    have apart := pairwise_map.mp sound.ordered
    -- The other controllers of the list have their lines before or behind.
    refine List.find?_eq_some_iff_append.mpr ⟨(tested gpio there).mpr covers, ?_⟩
    obtain ⟨before, after, split⟩ := append_of_mem there
    refine ⟨before, after, split, fun other early => ?_⟩
    rw [split] at apart
    have order := (pairwise_append.mp apart).2.2 other early gpio mem_cons_self
    have listed : other ∈ s.devices := split ▸ mem_append_left _ early
    simp only [Bool.not_eq_true', Bool.eq_false_iff, ne_eq, tested other listed]
    unfold GpioDevice.Covers at covers ⊢
    omega

/-- Ranges that are apart resolve each line to its controller. -/
theorem Core.Sound.resolved (sound : s.Sound) : s.Resolved where
  disjoint := sound.ordered.imp fun order => .inl order
  sorted := sound.ordered.imp fun order => Nat.le_trans (Nat.le_add_right _ _) order
  lineCount := sound.lineCount
  found := fun line _ => gpioGetDevice_eq_some sound line
  unique := by
    intro line one first other second left right
    -- Two controllers with a line in common are one, since the others are before or behind.
    by_contra differ
    have apart : s.devices.Pairwise fun one other =>
        (s.device one).upTo ≤ (s.device other).start ∨ (s.device other).upTo ≤ (s.device one).start :=
      (pairwise_map.mp sound.ordered).imp fun order => .inl order
    have symmetric : Std.Symm fun one other =>
        (s.device one).upTo ≤ (s.device other).start ∨ (s.device other).upTo ≤ (s.device one).start :=
      ⟨fun _ _ => Or.symm⟩
    have order := apart.forall first second differ
    unfold GpioDevice.Covers at left right
    omega

theorem Core.Sound.add (sound : s.Sound) (positive : 0 < (s.device gpio).count.toNat)
    (fits : (s.device gpio).upTo < 2 ^ 32) (free : Free s.ranges (s.device gpio).start (s.device gpio).count.toNat)
    (comparable : Comparable s.ranges (s.device gpio).start) : (s.add gpio).Sound := by
  have added : (s.add gpio).ranges.Perm (s.device gpio :: s.ranges) := listSortedAdd_perm.map s.device
  have positives : ∀ dev ∈ (s.add gpio).ranges, 0 < dev.count.toNat := by
    intro dev there
    rcases mem_cons.mp (added.mem_iff.mp there) with rfl | old
    · exact positive
    · exact sound.positives dev old
  have bounded : ∀ dev ∈ (s.add gpio).ranges, dev.upTo < 2 ^ 32 := by
    intro dev there
    rcases mem_cons.mp (added.mem_iff.mp there) with rfl | old
    · exact fits
    · exact sound.fits dev old
  have apart : (s.add gpio).ranges.Pairwise fun one other =>
      one.upTo ≤ other.start ∨ other.upTo ≤ one.start := by
    refine (added.pairwise_iff Or.symm).mpr (pairwise_cons.mpr ⟨fun dev there => ?_, ?_⟩)
    · exact (free dev there).symm
    · exact sound.ordered.imp fun order => .inl order
  have sorted : (s.add gpio).ranges.Pairwise fun one other => one.start ≤ other.start := by
    refine pairwise_map.mpr ?_
    change (listSortedAdd (gpioCompare s.device) gpio s.devices).Pairwise fun one other =>
      (s.device one).start ≤ (s.device other).start
    refine listSortedAdd_sorted ?_ ?_ ?_
    · exact (pairwise_map.mp sound.ordered).imp fun order => Nat.le_trans (Nat.le_add_right _ _) order
    · intro iter there early
      have near := comparable.earlier _ (mem_map_of_mem there) early
      rw [ge_iff_le, ← Int.not_lt, gpioCompare_neg_iff]
      have := (s.device gpio).base.isLt
      unfold GpioDevice.start at *
      omega
    · intro iter first
      have near : (s.device iter).start - (s.device gpio).start ≤ 2 ^ 31 := by
        refine comparable.later _ ?_
        unfold Core.ranges
        rw [List.find?_map]
        exact map_eq_some_iff.mpr ⟨iter, first, rfl⟩
      have after := of_decide_eq_true
        (List.find?_some (p := fun iter => decide ((s.device gpio).start < (s.device iter).start)) first)
      rw [gpioCompare_neg_iff]
      have := (s.device iter).base.isLt
      unfold GpioDevice.start at *
      omega
  have ordered : (s.add gpio).ranges.Pairwise fun one other => one.upTo ≤ other.start := by
    refine (apart.and sorted).imp_of_mem fun {one other} _ there => ?_
    rintro ⟨order | order, below⟩
    · exact order
    · have lines := positives other there
      unfold GpioDevice.upTo GpioDevice.start at *
      omega
  refine ⟨positives, bounded, ordered, ?_⟩
  have total : 0 + ((s.add gpio).ranges.map fun dev => dev.count.toNat).sum ≤ 2 ^ 32 - 1 :=
    sum_counts_le ordered (fun dev _ => Nat.zero_le dev.start)
      (fun dev there => Nat.le_sub_one_of_lt (bounded dev there)) (Nat.zero_le _)
  have sum := (added.map fun dev => dev.count.toNat).sum_nat
  rw [map_cons, sum_cons] at sum
  have grown : (s.add gpio).lineCount = s.lineCount + (s.device gpio).count := rfl
  rw [grown, BitVec.toNat_add, sound.lineCount]
  omega

theorem Core.Sound.congr (sound : s.Sound) (ranges : next.ranges = s.ranges) (lineCount : next.lineCount = s.lineCount) :
    next.Sound := by
  refine ⟨?_, ?_, ?_, ?_⟩ <;> simp only [ranges, lineCount]
  exacts [sound.positives, sound.fits, sound.ordered, sound.lineCount]

theorem ranges_update (fresh : gpio ∉ s.devices) (dev : GpioDevice) :
    Core.ranges { s with device := update s.device gpio dev } = s.ranges := by
  refine map_congr_left fun other there => ?_
  have differs : other ≠ gpio := by
    rintro rfl
    exact fresh there
  exact update_of_ne differs _ _

theorem gpioGetDevice_eq_none (sound : s.Sound) {line : BitVec 32} (nobody : gpioGetDevice s line = none) :
    ∀ dev ∈ s.ranges, ¬dev.Covers line.toNat := by
  intro dev there covers
  obtain ⟨gpio, listed, rfl⟩ := mem_map.mp there
  rw [(gpioGetDevice_eq_some sound line).mpr ⟨listed, covers⟩] at nobody
  cases nobody

theorem gpioFindBase_eq (s : Core) (count : BitVec 32) :
    gpioFindBase s count = s.ranges.foldl (findBaseNext count) 0 := by
  unfold gpioFindBase Core.ranges
  rw [foldl_map]

/-- A regular registration keeps the ranges apart and sorted. -/
theorem Core.Sound.step {r : Registration} (sound : s.Sound) (regular : Regular s r)
    (stepped : Gpio.step s r = some next) : next.Sound := by
  unfold Gpio.step at stepped
  split at stepped
  · cases stepped
  rename_i fresh
  obtain rfl := some.inj stepped
  obtain ⟨positive, regular⟩ := regular
  set filled : Core := { s with device := update s.device r.gpio ⟨r.base, r.count⟩ } with whole
  have filling : filled.Sound := sound.congr (ranges_update fresh _) rfl
  have same : filled.ranges = s.ranges := ranges_update fresh _
  have own : filled.device r.gpio = ⟨r.base, r.count⟩ := update_self ..
  unfold gpioDeviceRegister
  dsimp only
  rw [own]
  split
  · rename_i explicit
    rw [if_pos explicit] at regular
    obtain ⟨bound, visible, comparable⟩ := regular
    split
    · exact filling
    · rename_i conflict
      rw [Bool.or_eq_true, not_or, not_isSome_iff_eq_none, not_isSome_iff_eq_none] at conflict
      have ends : EndsFree s.ranges r.base.toNat r.count.toNat := by
        intro dev there
        have first := gpioGetDevice_eq_none filling conflict.1 dev (same ▸ there)
        have last := gpioGetDevice_eq_none filling conflict.2 dev (same ▸ there)
        rw [toNat_last positive bound] at last
        exact ⟨first, last⟩
      have free : Free s.ranges r.base.toNat r.count.toNat := by
        by_contra taken
        exact visible ⟨ends, taken⟩
      refine filling.add ?_ ?_ ?_ ?_ <;> rw [own]
      · exact positive
      · exact bound
      · exact same ▸ free
      · exact same ▸ comparable free
  · rename_i automatic
    rw [if_neg automatic] at regular
    obtain ⟨start, firstFree, bound, comparable, seen⟩ := regular
    have found : (gpioFindBase filled r.count).toNat = start := by
      rw [gpioFindBase_eq, same]
      exact findBase_eq sound.ordered sound.fits positive firstFree bound seen
    have still : r.gpio ∉ filled.devices := fresh
    have again := ranges_update still ⟨gpioFindBase filled r.count, r.count⟩
    have placed : GpioDevice.start ⟨gpioFindBase filled r.count, r.count⟩ = start := found
    refine (filling.congr again rfl).add ?_ ?_ ?_ ?_ <;> dsimp only <;> rw [update_self]
    · exact positive
    · unfold GpioDevice.upTo
      rw [found]
      exact bound
    · rw [again, same, placed]
      exact firstFree.free
    · rw [again, same, placed]
      exact comparable

/-- A registration leaves the other controllers as they are. -/
theorem step_kept {r : Registration} (stepped : Gpio.step s r = some next) (listed : gpio ∈ s.devices) :
    gpio ∈ next.devices ∧ next.device gpio = s.device gpio := by
  unfold Gpio.step at stepped
  split at stepped
  · cases stepped
  rename_i fresh
  have differs : gpio ≠ r.gpio := fun same => fresh (same ▸ listed)
  obtain rfl := some.inj stepped
  have added (device : ℕ → GpioDevice) : gpio ∈ listSortedAdd (gpioCompare device) r.gpio s.devices :=
    listSortedAdd_perm.mem_iff.mpr (mem_cons_of_mem _ listed)
  unfold gpioDeviceRegister
  dsimp only
  split
  · split
    · exact ⟨listed, update_of_ne differs _ _⟩
    · exact ⟨added _, update_of_ne differs _ _⟩
  · refine ⟨added _, ?_⟩
    change update (update _ _ _) _ _ gpio = _
    rw [update_of_ne differs, update_of_ne differs]

end Registrations

/-- In every run of registrations that meet the condition, the ranges of the registered controllers are disjoint and
sorted and add up to the line count, and a line that has been found at a controller is always found there. -/
theorem gpio_ranges_stay_disjoint (device : ℕ → GpioDevice) (early late : List Registration) (middle final : Core)
    (guardedEarly : Guarded step Regular (Core.boot device) early)
    (ranEarly : run step (Core.boot device) early = some middle)
    (guardedLate : Guarded step Regular middle late) (ranLate : run step middle late = some final) :
    final.Resolved ∧
      ∀ line gpio, gpioGetDevice middle line = some gpio → gpioGetDevice final line = some gpio := by
  have boot : (Core.boot device).Sound := ⟨nofun, nofun, List.Pairwise.nil, rfl⟩
  have before := run_invariant_of_guarded Core.Sound boot guardedEarly ranEarly fun sound => sound.step
  have after := run_invariant_of_guarded Core.Sound before guardedLate ranLate fun sound => sound.step
  refine ⟨after.resolved, fun line gpio found => ?_⟩
  obtain ⟨listed, covers⟩ := (gpioGetDevice_eq_some before line).mp found
  have stays := run_invariant (fun s => gpio ∈ s.devices ∧ s.device gpio = middle.device gpio) ⟨listed, rfl⟩ ranLate
    fun holds stepped => by
      have kept := step_kept stepped holds.1
      exact ⟨kept.1, kept.2.trans holds.2⟩
  exact (gpioGetDevice_eq_some after line).mpr ⟨stays.1, stays.2 ▸ covers⟩

/-- A controller with a free range of its own and one that takes the first free place -/
theorem gpio_ranges_stay_disjoint_two :
    ∃ middle final, run step (Core.boot fun _ => ⟨0, 0⟩) [⟨0, 4, 2⟩] = some middle ∧
      run step middle [⟨1, - 1, 3⟩] = some final ∧ final.ranges = [⟨0, 3⟩, ⟨4, 2⟩] ∧ final.Resolved ∧
      ∀ line gpio, gpioGetDevice middle line = some gpio → gpioGetDevice final line = some gpio := by
  have first : (run step (Core.boot fun _ => ⟨0, 0⟩) [⟨0, 4, 2⟩]).map Core.ranges = some [⟨4, 2⟩] := by
    decide +kernel
  obtain ⟨middle, ranEarly, place⟩ := map_eq_some_iff.mp first
  have second : (run step (Core.boot fun _ => ⟨0, 0⟩) [⟨0, 4, 2⟩, ⟨1, - 1, 3⟩]).map Core.ranges =
      some [⟨0, 3⟩, ⟨4, 2⟩] := by
    decide +kernel
  obtain ⟨final, ran, places⟩ := map_eq_some_iff.mp second
  obtain ⟨between, stepped, ranLate⟩ := bind_eq_some_iff.mp ran
  obtain ⟨_, again, ended⟩ := bind_eq_some_iff.mp ranEarly
  obtain rfl := some.inj ended
  obtain rfl := some.inj (stepped.symm.trans again)
  have guardedEarly : Guarded step Regular (Core.boot fun _ => ⟨0, 0⟩) [⟨0, 4, 2⟩] := by
    refine ⟨⟨by decide, ?_⟩, fun _ _ => trivial⟩
    rw [if_pos (by decide)]
    exact ⟨by decide, fun hidden => hidden.2 nofun, fun _ => ⟨nofun, nofun⟩⟩
  have guardedLate : Guarded step Regular between [⟨1, - 1, 3⟩] := by
    refine ⟨⟨by decide, ?_⟩, fun _ _ => trivial⟩
    rw [if_neg (by decide), place]
    refine ⟨0, ⟨List.mem_cons_self, ?_, ?_⟩, by decide, ⟨?_, ?_⟩, ?_⟩
    · unfold Free
      decide
    · intro lower _ below
      cases below
    · decide
    · decide
    · intro lower _ below
      cases below
  exact ⟨between, final, ranEarly, ranLate, places,
    gpio_ranges_stay_disjoint _ _ _ _ _ guardedEarly ranEarly guardedLate ranLate⟩

theorem exists_overlap (registrations : List Registration) (ranges : List GpioDevice)
    (ends : (run step (Core.boot fun _ => ⟨0, 0⟩) registrations).map Core.ranges = some ranges)
    (overlap : ¬ ranges.Pairwise fun one other => one.upTo ≤ other.start ∨ other.upTo ≤ one.start) :
    ∃ final, run step (Core.boot fun _ => ⟨0, 0⟩) registrations = some final ∧ final.ranges = ranges ∧ ¬final.Resolved := by
  obtain ⟨final, ran, places⟩ := map_eq_some_iff.mp ends
  refine ⟨final, ran, places, fun resolved => ?_⟩
  have disjoint := resolved.disjoint
  rw [places] at disjoint
  exact overlap disjoint

/-- An explicit range and an automatic one are put over a controller that lies strictly inside, and the difference of
two bases that are far apart is negative as an `int`. -/
theorem gpio_device_register_overlaps :
    (∃ final, run step (Core.boot fun _ => ⟨0, 0⟩) [⟨0, 5, 1⟩, ⟨1, 0, 10⟩] = some final ∧
      final.ranges = [⟨0, 10⟩, ⟨5, 1⟩] ∧ ¬final.Resolved) ∧
    (∃ final, run step (Core.boot fun _ => ⟨0, 0⟩) [⟨0, 2, 1⟩, ⟨1, - 1, 10⟩] = some final ∧
      final.ranges = [⟨0, 10⟩, ⟨2, 1⟩] ∧ ¬final.Resolved) ∧
    ∃ final, run step (Core.boot fun _ => ⟨0, 0⟩) [⟨0, 0, 1⟩, ⟨1, 0x80000000, 1⟩] = some final ∧
      final.ranges = [⟨0x80000000, 1⟩, ⟨0, 1⟩] ∧ ¬final.Resolved := by
  refine ⟨?_, ?_, ?_⟩
  · exact exists_overlap _ [⟨0, 10⟩, ⟨5, 1⟩] (by decide +kernel) (by decide)
  · exact exists_overlap _ [⟨0, 10⟩, ⟨2, 1⟩] (by decide +kernel) (by decide)
  · refine exists_final Core.ranges [⟨0x80000000, 1⟩, ⟨0, 1⟩] (by decide +kernel) fun final ran places => ?_
    refine ⟨places, fun resolved => ?_⟩
    have sorted := resolved.sorted
    rw [places] at sorted
    exact absurd sorted (by decide)

end Phabos.Gpio
