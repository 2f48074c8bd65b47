import Phabos.Construction.Kernel.Irq
import Phabos.Library.Masks

namespace Phabos.Irq
open Library List

/-- Whether the interrupt controller has a line enabled -/
def Interrupts.lineEnabled (s : Interrupts) (line : ℕ) : Bool := (s.enabled (line / 32)).getLsbD (line % 32)

/-- An `irq_enable_line` that has found the counter of its line not 0 -/
def Entry.Effective (entry : Entry) (line : ℕ) : Prop :=
  entry.call = .enableLine line ∧ entry.before.irqState line ≠ 0

instance (entry : Entry) (line : ℕ) : Decidable (entry.Effective line) := inferInstanceAs (Decidable (_ ∧ _))

section System
variable (machine : Machine) (s : System)

/-- How many `irq_disable` and `irq_enable` calls there were -/
def System.disables : ℕ := s.record.countP fun entry => entry.call = .disable

def System.enables : ℕ := s.record.countP fun entry => entry.call = .enable

/-- How many `irq_disable_line` calls there were for a line, that of `irq_initialize` included, and how many
effective `irq_enable_line` calls -/
def System.lineDisables (line : ℕ) : ℕ := 1 + s.record.countP fun entry => entry.call = .disableLine line

def System.lineEnables (line : ℕ) : ℕ := s.record.countP fun entry => entry.Effective line

/-- The line that a call is for is no line of the machine. -/
def Call.Outside : Call → Prop
  | .disable | .enable => False
  | .disableLine line | .enableLine line => ¬(0 ≤ line ∧ line < CPU_NUM_IRQ machine)

/-- Interrupts are masked and each line is enabled as the calls so far say, and the calls for other lines have changed
nothing. -/
structure Balanced : Prop where
  within : s.irq.strayed = false
  masked : s.irq.masked = true ↔ s.enables < s.disables
  lines : ∀ line < CPU_NUM_IRQ machine, s.irq.lineEnabled line = true ↔ s.lineDisables line ≤ s.lineEnables line
  outside : ∀ entry ∈ s.record, entry.call.Outside machine → entry.after = entry.before

/-- `irq_enable` calls do not outnumber `irq_disable` calls. -/
def Paired : Call → Prop
  | .enable => s.enables < s.disables
  | _ => True

/-- The counter of 32 bits is not 0 when interrupts are masked. -/
def System.Counts : Prop := s.enables < s.disables → (s.disables - s.enables) % 2 ^ 32 ≠ 0

/-- No line is negative, only `irq_enable_line` gets one that is too large, and no counter is mistaken for 0 after so many
calls that it wraps. -/
def Kept : Call → Prop
  | .disable => True
  | .enable => s.enables + 1 < s.disables → (s.disables - s.enables) % 2 ^ 32 ≠ 1
  | .disableLine line => 0 ≤ line ∧ line < CPU_NUM_IRQ machine ∧ s.Counts
  | .enableLine line => 0 ≤ line ∧ s.Counts ∧
      (line < CPU_NUM_IRQ machine → s.lineEnables line.toNat + 1 < s.lineDisables line.toNat →
        (s.lineDisables line.toNat - s.lineEnables line.toNat) % 2 ^ 8 ≠ 1)

end System

section Interrupts
variable {machine : Machine} {s : Interrupts} {line other : ℕ}

/-- What a pair of `irq_disable` and `irq_enable` around some code leaves: interrupts that the counter says to mask -/
def Interrupts.settle (s : Interrupts) : Interrupts := { s with masked := decide (s.irqGlobalState ≠ 0) }

@[simp] theorem settle_irqState : s.settle.irqState = s.irqState := rfl

@[simp] theorem settle_irqGlobalState : s.settle.irqGlobalState = s.irqGlobalState := rfl

@[simp] theorem settle_strayed : s.settle.strayed = s.strayed := rfl

@[simp] theorem settle_masked : s.settle.masked = decide (s.irqGlobalState ≠ 0) := rfl

@[simp] theorem settle_lineEnabled : s.settle.lineEnabled line = s.lineEnabled line := rfl

theorem irqEnable_settles {t : Interrupts} (counted : t.irqGlobalState = s.irqGlobalState + 1)
    (masked : t.masked = true) : irqEnable t = ({ t with irqGlobalState := s.irqGlobalState }).settle := by
  have back : t.irqGlobalState - 1 = s.irqGlobalState := by
    rw [counted]
    exact BitVec.add_sub_cancel _ _
  unfold irqEnable Interrupts.settle
  rw [back, masked]
  by_cases zero : s.irqGlobalState = 0 <;> simp [zero]

theorem irqDisableLine_valid (valid : line < CPU_NUM_IRQ machine) :
    irqDisableLine machine s line = ((s.setState line (s.irqState line + 1)).writeClrena line).settle := by
  have small : (line : Int) < CPU_NUM_IRQ machine := Int.ofNat_lt.mpr valid
  have bound : CPU_NUM_IRQ machine ≤ 138 := by cases machine <;> decide
  unfold irqDisableLine
  rw [if_neg (not_not_intro small), if_neg (not_not_intro (by omega)), if_neg (by omega)]
  exact irqEnable_settles rfl rfl

theorem irqDisableLine_large {line : Int} (large : ¬line < CPU_NUM_IRQ machine) :
    irqDisableLine machine s line = irqDisable s := if_pos large

theorem irqDisableLine_negative {line : Int} (negative : line < 0) :
    irqDisableLine machine s line = ({ s with strayed := true }).settle := by
  unfold irqDisableLine
  rw [if_neg (not_not_intro (by omega)), if_neg (not_not_intro (by omega)), if_pos negative]
  exact irqEnable_settles rfl rfl

theorem irqEnableLine_large {line : Int} (large : ¬line < CPU_NUM_IRQ machine) :
    irqEnableLine machine s line = s.settle := (if_pos large).trans (irqEnable_settles rfl rfl)

theorem irqEnableLine_negative {line : Int} (negative : line < 0) :
    irqEnableLine machine s line = ({ s with strayed := true }).settle := by
  unfold irqEnableLine
  rw [if_neg (not_not_intro (by omega)), if_pos negative]
  exact irqEnable_settles rfl rfl

theorem irqEnableLine_zero (valid : line < CPU_NUM_IRQ machine) (zero : s.irqState line = 0) :
    irqEnableLine machine s line = s.settle := by
  have small : (line : Int) < CPU_NUM_IRQ machine := Int.ofNat_lt.mpr valid
  unfold irqEnableLine
  rw [if_neg (not_not_intro small), if_neg (by omega)]
  exact (if_pos (not_not_intro zero)).trans (irqEnable_settles rfl rfl)

theorem irqEnableLine_counted (valid : line < CPU_NUM_IRQ machine) (counted : s.irqState line ≠ 0) :
    irqEnableLine machine s line =
      (if s.irqState line - 1 = 0 then (s.setState line (s.irqState line - 1)).writeSetena line
        else s.setState line (s.irqState line - 1)).settle := by
  have small : (line : Int) < CPU_NUM_IRQ machine := Int.ofNat_lt.mpr valid
  unfold irqEnableLine
  rw [if_neg (not_not_intro small), if_neg (by omega)]
  refine (if_neg (not_not_intro counted)).trans ?_
  by_cases zero : s.irqState line - 1 = 0
  · rw [if_pos zero]
    exact (congrArg irqEnable (if_pos zero)).trans (irqEnable_settles rfl rfl)
  · rw [if_neg zero]
    exact (congrArg irqEnable (if_neg zero)).trans (irqEnable_settles rfl rfl)

theorem getLsbD_lineBit : (lineBit line).getLsbD (other % 32) = decide (other % 32 = line % 32) := by
  have small : other % 32 < 32 := Nat.mod_lt _ (by decide)
  unfold lineBit
  rw [← BitVec.twoPow_eq]
  simp [small, eq_comm]

theorem lineEnabled_writeClrena :
    (s.writeClrena line).lineEnabled other = (s.lineEnabled other && decide (other ≠ line)) := by
  by_cases register : other / 32 = line / 32
  · have same : other = line ↔ other % 32 = line % 32 := by omega
    have small : other % 32 < 32 := Nat.mod_lt _ (by decide)
    unfold Interrupts.lineEnabled Interrupts.writeClrena
    simp only [register, Function.update_self, BitVec.getLsbD_and, BitVec.getLsbD_not, getLsbD_lineBit, small]
    simp [same]
  · have apart : other ≠ line := fun same => register (congrArg (· / 32) same)
    simp [Interrupts.lineEnabled, Interrupts.writeClrena, register, apart]

theorem lineEnabled_writeSetena :
    (s.writeSetena line).lineEnabled other = (s.lineEnabled other || decide (other = line)) := by
  by_cases register : other / 32 = line / 32
  · have same : other = line ↔ other % 32 = line % 32 := by omega
    simp [Interrupts.lineEnabled, Interrupts.writeSetena, register, getLsbD_lineBit, same]
  · have apart : other ≠ line := fun same => register (congrArg (· / 32) same)
    simp [Interrupts.lineEnabled, Interrupts.writeSetena, register, apart]

end Interrupts

section Initialize
variable (machine : Machine) (s : Interrupts)

theorem irqInitialize_lines (clear : s.irqGlobalState = 0) (zero : ∀ line, s.irqState line = 0) :
    ∀ count ≤ CPU_NUM_IRQ machine, ∀ t : Interrupts,
      t = (range count).foldl (fun s (i : ℕ) => irqDisableLine machine s i) s →
        t.irqGlobalState = 0 ∧ t.strayed = s.strayed ∧ (0 < count → t.masked = false) ∧
          (∀ line < count, t.irqState line = 1 ∧ t.lineEnabled line = false) ∧
            ∀ line, count ≤ line → t.irqState line = 0 := by
  intro count
  induction count with
  | zero =>
    rintro - t rfl
    exact ⟨clear, rfl, nofun, nofun, fun line _ => zero line⟩
  | succ count ih =>
    rintro valid t rfl
    obtain ⟨global, strayed, -, below, above⟩ := ih (by omega) _ rfl
    rw [range_succ, foldl_append, foldl_cons, foldl_nil, irqDisableLine_valid valid]
    refine ⟨global, strayed, fun _ => ?_, fun line inside => ⟨?_, ?_⟩, fun line outside => ?_⟩
    · simp [Interrupts.writeClrena, Interrupts.setState, global]
    · by_cases last : line = count
      · subst last
        simp [Interrupts.writeClrena, Interrupts.setState, above line (Nat.le_refl _)]
      · simp [Interrupts.writeClrena, Interrupts.setState, last, (below line (by omega)).1]
    · rw [settle_lineEnabled, lineEnabled_writeClrena]
      by_cases last : line = count
      · simp [last]
      · have before := (below line (by omega)).2
        simp only [Interrupts.lineEnabled] at before ⊢
        simp [Interrupts.setState, before]
    · have apart : line ≠ count := by omega
      simp [Interrupts.writeClrena, Interrupts.setState, apart, above line (by omega)]

end Initialize

section Counts
variable {machine : Machine} {s : System} {irq : Interrupts} {entry : Entry} {line : ℕ}

@[simp] theorem disables_append : System.disables ⟨irq, s.record ++ [entry]⟩ =
    s.disables + if entry.call = .disable then 1 else 0 := by
  simp [System.disables, countP_cons]

@[simp] theorem enables_append : System.enables ⟨irq, s.record ++ [entry]⟩ =
    s.enables + if entry.call = .enable then 1 else 0 := by
  simp [System.enables, countP_cons]

@[simp] theorem lineDisables_append : System.lineDisables ⟨irq, s.record ++ [entry]⟩ line =
    s.lineDisables line + if entry.call = .disableLine line then 1 else 0 := by
  simp [System.lineDisables, countP_cons, Nat.add_assoc]

@[simp] theorem lineEnables_append : System.lineEnables ⟨irq, s.record ++ [entry]⟩ line =
    s.lineEnables line + if entry.Effective line then 1 else 0 := by
  simp [System.lineEnables, countP_cons]

/-- An `irq_disable_line` that returns before its `irq_enable` -/
def Call.Leaks (machine : Machine) : Call → Prop
  | .disableLine line => ¬line < CPU_NUM_IRQ machine
  | .disable | .enable | .enableLine _ => False

instance : DecidablePred (Call.Leaks machine)
  | .disableLine _ => inferInstanceAs (Decidable (¬_))
  | .disable | .enable | .enableLine _ => inferInstanceAs (Decidable False)

def System.leaks (machine : Machine) (s : System) : ℕ := s.record.countP fun entry => entry.call.Leaks machine

@[simp] theorem leaks_append : System.leaks machine ⟨irq, s.record ++ [entry]⟩ =
    s.leaks machine + if entry.call.Leaks machine then 1 else 0 := by
  simp [System.leaks, countP_cons]

end Counts

/-- The counters are the numbers of calls that they stand for, up to their widths. -/
structure Counted (machine : Machine) (s : System) : Prop where
  paired : s.enables ≤ s.disables
  global : s.irq.irqGlobalState = BitVec.ofNat 32 (s.disables - s.enables + s.leaks machine)
  effective : ∀ line < CPU_NUM_IRQ machine, s.lineEnables line ≤ s.lineDisables line
  line : ∀ line < CPU_NUM_IRQ machine,
    s.irq.irqState line = BitVec.ofNat 8 (s.lineDisables line - s.lineEnables line)
  performed : ∀ entry ∈ s.record, entry.after = entry.call.perform machine entry.before

section Steps
variable {machine : Machine} {s : System} {line : ℕ}

/-- The system after a call -/
def System.next (machine : Machine) (s : System) (call : Call) : System :=
  ⟨call.perform machine s.irq, s.record ++ [⟨call, s.irq, call.perform machine s.irq⟩]⟩

theorem counted_start (machine : Machine) (masked : Bool) (enabled : ℕ → BitVec 32) :
    Counted machine (.start machine masked enabled) ∧ Balanced machine (.start machine masked enabled) := by
  have some_line : 0 < CPU_NUM_IRQ machine := by cases machine <;> decide
  obtain ⟨global, strayed, unmasked, lines, -⟩ :=
    irqInitialize_lines machine (.boot masked enabled) rfl (fun _ => rfl) _ (Nat.le_refl _) _ rfl
  refine ⟨⟨Nat.le_refl _, global, fun _ _ => Nat.zero_le _, fun line valid => (lines line valid).1, nofun⟩,
    ⟨strayed, ?_, fun line valid => ?_, nofun⟩⟩
  · have off : (System.start machine masked enabled).irq.masked = false := unmasked some_line
    rw [off]
    exact iff_of_false Bool.false_ne_true (Nat.lt_irrefl _)
  · have off : (System.start machine masked enabled).irq.lineEnabled line = false := (lines line valid).2
    rw [off]
    exact iff_of_false Bool.false_ne_true (Nat.not_succ_le_zero _)

theorem Balanced.leaks (balanced : Balanced machine s) (counted : Counted machine s) : s.leaks machine = 0 := by
  apply countP_eq_zero.mpr
  intro entry there leaks
  have same := counted.performed entry there
  obtain ⟨call, before, after⟩ := entry
  cases call with
  | disable | enable | enableLine line => exact (of_decide_eq_true leaks).elim
  | disableLine line =>
    have large : ¬line < CPU_NUM_IRQ machine := of_decide_eq_true leaks
    have kept := balanced.outside _ there fun valid => large valid.2
    rw [same] at kept
    have state := congrArg Interrupts.irqGlobalState kept
    simp [Call.perform, irqDisableLine_large large, irqDisable] at state

theorem line_cases (machine : Machine) (line : Int) :
    ¬line < CPU_NUM_IRQ machine ∨ line < 0 ∨ ∃ number : ℕ, number < CPU_NUM_IRQ machine ∧ line = number := by
  by_cases negative : line < 0
  · exact .inr (.inl negative)
  · by_cases large : line < CPU_NUM_IRQ machine
    · exact .inr (.inr ⟨line.toNat, by omega, by omega⟩)
    · exact .inl large

theorem ofNat_succ {w : ℕ} (count : ℕ) : BitVec.ofNat w (count + 1) = BitVec.ofNat w count + 1 :=
  BitVec.ofNat_add count 1

theorem ofNat_pred {w count : ℕ} (positive : 0 < count) : BitVec.ofNat w (count - 1) = BitVec.ofNat w count - 1 := by
  obtain ⟨count, rfl⟩ := Nat.exists_eq_succ_of_ne_zero (Nat.ne_of_gt positive)
  rw [Nat.succ_eq_add_one, ofNat_succ, BitVec.add_sub_cancel, Nat.add_sub_cancel]

theorem Counted.global_next (counted : Counted machine s) {call : Call} (paired : Paired s call) :
    (s.next machine call).irq.irqGlobalState = BitVec.ofNat 32
      ((s.next machine call).disables - (s.next machine call).enables + (s.next machine call).leaks machine) := by
  have below := counted.paired
  have before := counted.global
  unfold System.next
  rw [disables_append, enables_append, leaks_append]
  cases call with
  | disable =>
    change s.irq.irqGlobalState + 1 = BitVec.ofNat 32 (s.disables + 1 - s.enables + s.leaks machine)
    rw [before, ← ofNat_succ]
    congr 1
    omega
  | enable =>
    have more : s.enables < s.disables := paired
    change s.irq.irqGlobalState - 1 = BitVec.ofNat 32 (s.disables - (s.enables + 1) + s.leaks machine)
    rw [before, ← ofNat_pred (by omega)]
    congr 1
    omega
  | disableLine line =>
    rcases line_cases machine line with large | negative | ⟨number, valid, rfl⟩
    · have one : (if Call.Leaks machine (.disableLine line) then 1 else 0) = 1 := if_pos large
      rw [one, Call.perform, irqDisableLine_large large]
      exact (congrArg (· + 1) before).trans (ofNat_succ _).symm
    · have none : (if Call.Leaks machine (.disableLine line) then 1 else 0) = 0 :=
        if_neg (not_not_intro (show line < CPU_NUM_IRQ machine by omega))
      rw [none, Call.perform, irqDisableLine_negative negative]
      exact before
    · have none : (if Call.Leaks machine (.disableLine number) then 1 else 0) = 0 :=
        if_neg (not_not_intro (Int.ofNat_lt.mpr valid))
      rw [none, Call.perform, irqDisableLine_valid valid]
      exact before
  | enableLine line =>
    have same : (irqEnableLine machine s.irq line).irqGlobalState = s.irq.irqGlobalState := by
      rcases line_cases machine line with large | negative | ⟨number, valid, rfl⟩
      · rw [irqEnableLine_large large]
        rfl
      · rw [irqEnableLine_negative negative]
        rfl
      · by_cases zero : s.irq.irqState number = 0
        · rw [irqEnableLine_zero valid zero]
          rfl
        · rw [irqEnableLine_counted valid zero]
          split_ifs <;> rfl
    exact same.trans before

theorem Counted.line_next (counted : Counted machine s) (call : Call) (valid : line < CPU_NUM_IRQ machine) :
    (s.next machine call).lineEnables line ≤ (s.next machine call).lineDisables line ∧
      (s.next machine call).irq.irqState line =
        BitVec.ofNat 8 ((s.next machine call).lineDisables line - (s.next machine call).lineEnables line) := by
  have below := counted.effective line valid
  have before := counted.line line valid
  unfold System.next
  rw [lineDisables_append, lineEnables_append]
  -- Calls for no line of the machine, and for other lines, leave the counter and its numbers alone.
  have aside (call : Call) (other : call ≠ .disableLine line) (skipped : call ≠ .enableLine line)
      (kept : (call.perform machine s.irq).irqState line = s.irq.irqState line) :
      s.lineEnables line + (if (Entry.mk call s.irq (call.perform machine s.irq)).Effective line then 1 else 0) ≤
          s.lineDisables line + (if call = .disableLine line then 1 else 0) ∧
        (call.perform machine s.irq).irqState line =
          BitVec.ofNat 8 (s.lineDisables line + (if call = .disableLine line then 1 else 0) -
            (s.lineEnables line + if (Entry.mk call s.irq (call.perform machine s.irq)).Effective line then 1 else 0)) := by
    rw [if_neg fun both => skipped both.1, if_neg other, kept]
    exact ⟨below, before⟩
  cases call with
  | disable => exact aside .disable nofun nofun rfl
  | enable => exact aside .enable nofun nofun rfl
  | disableLine other =>
    rcases line_cases machine other with large | negative | ⟨number, inside, rfl⟩
    · refine aside _ (fun same => ?_) nofun (by rw [Call.perform, irqDisableLine_large large]; rfl)
      cases same
      exact large (Int.ofNat_lt.mpr valid)
    · refine aside _ (fun same => ?_) nofun (by rw [Call.perform, irqDisableLine_negative negative]; rfl)
      cases same
      omega
    · by_cases same : number = line
      · subst same
        rw [if_neg (fun both => nomatch both.1), if_pos rfl, Call.perform, irqDisableLine_valid inside]
        refine ⟨by omega, ?_⟩
        have state : s.irq.irqState number + 1 = BitVec.ofNat 8 (s.lineDisables number + 1 - s.lineEnables number) := by
          rw [before, ← ofNat_succ]
          congr 1
          omega
        simpa [Interrupts.writeClrena, Interrupts.setState] using state
      · refine aside _ (fun equal => same ?_) nofun ?_
        · cases equal
          rfl
        · rw [Call.perform, irqDisableLine_valid inside]
          simp [Interrupts.writeClrena, Interrupts.setState, Ne.symm same]
  | enableLine other =>
    rcases line_cases machine other with large | negative | ⟨number, inside, rfl⟩
    · refine aside _ nofun (fun same => ?_) (by rw [Call.perform, irqEnableLine_large large]; rfl)
      cases same
      exact large (Int.ofNat_lt.mpr valid)
    · refine aside _ nofun (fun same => ?_) (by rw [Call.perform, irqEnableLine_negative negative]; rfl)
      cases same
      omega
    · by_cases zero : s.irq.irqState number = 0
      · have other : ¬Call.enableLine number = .disableLine line := nofun
        have ineffective (after : Interrupts) : ¬(Entry.mk (.enableLine number) s.irq after).Effective line := by
          rintro ⟨same, counts⟩
          cases same
          exact counts zero
        rw [if_neg (ineffective _), if_neg other, Call.perform, irqEnableLine_zero inside zero]
        exact ⟨below, before⟩
      · by_cases same : number = line
        · subst same
          have some_left : 0 < s.lineDisables number - s.lineEnables number := by
            apply Nat.pos_of_ne_zero
            intro none
            rw [none] at before
            exact zero before
          have other : ¬Call.enableLine number = .disableLine number := nofun
          rw [if_pos (show Entry.Effective _ number from ⟨rfl, zero⟩), if_neg other, Call.perform,
            irqEnableLine_counted inside zero]
          refine ⟨by omega, ?_⟩
          have state : s.irq.irqState number - 1 = BitVec.ofNat 8 (s.lineDisables number - (s.lineEnables number + 1)) := by
            rw [before, ← ofNat_pred some_left]
            congr 1
          split_ifs <;> simpa [Interrupts.writeSetena, Interrupts.setState] using state
        · refine aside _ nofun (fun equal => same ?_) ?_
          · cases equal
            rfl
          · rw [Call.perform, irqEnableLine_counted inside zero]
            split_ifs <;> simp [Interrupts.writeSetena, Interrupts.setState, Ne.symm same]

theorem Counted.next (counted : Counted machine s) {call : Call} (paired : Paired s call) :
    Counted machine (s.next machine call) where
  paired := by
    have below := counted.paired
    unfold System.next
    rw [disables_append, enables_append]
    cases call with
    | enable => exact show s.enables + 1 ≤ s.disables from paired
    | disable => exact show s.enables ≤ s.disables + 1 by omega
    | disableLine _ | enableLine _ => exact below
  global := counted.global_next paired
  effective := fun _ valid => (counted.line_next call valid).1
  line := fun _ valid => (counted.line_next call valid).2
  performed := by
    intro entry there
    rcases mem_append.mp there with old | new
    · exact counted.performed entry old
    · rw [mem_singleton.mp new]

end Steps

section Balance
variable {machine : Machine} {s : System} {call : Call}

theorem Balanced.counts_iff (balanced : Balanced machine s) (counted : Counted machine s) :
    (decide (s.irq.irqGlobalState ≠ 0) = true ↔ s.enables < s.disables) ↔ s.Counts := by
  have below := counted.paired
  have zero : s.irq.irqGlobalState = 0 ↔ (s.disables - s.enables) % 2 ^ 32 = 0 := by
    rw [counted.global, balanced.leaks counted, BitVec.ofNat_eq_ofNat, ← BitVec.toNat_inj]
    simp
  rw [decide_eq_true_iff, ne_eq, zero]
  unfold System.Counts
  constructor
  · exact fun same => same.mpr
  · intro counts
    refine ⟨fun some_left => ?_, counts⟩
    by_contra none_left
    exact some_left (by rw [Nat.sub_eq_zero_of_le (Nat.le_of_not_lt none_left), Nat.zero_mod])

theorem Balanced.next_iff_parts (balanced : Balanced machine s) :
    Balanced machine (s.next machine call) ↔
      (call.perform machine s.irq).strayed = false ∧
      ((call.perform machine s.irq).masked = true ↔
        (s.next machine call).enables < (s.next machine call).disables) ∧
      (∀ line < CPU_NUM_IRQ machine, (call.perform machine s.irq).lineEnabled line = true ↔
        (s.next machine call).lineDisables line ≤ (s.next machine call).lineEnables line) ∧
      (call.Outside machine → call.perform machine s.irq = s.irq) := by
  constructor
  · intro next
    refine ⟨next.within, next.masked, next.lines, ?_⟩
    exact next.outside ⟨call, s.irq, call.perform machine s.irq⟩ (mem_append_right _ mem_cons_self)
  · rintro ⟨within, masked, lines, outside⟩
    refine ⟨within, masked, lines, fun entry there => ?_⟩
    rcases mem_append.mp there with old | new
    · exact balanced.outside entry old
    · rw [mem_singleton.mp new]
      exact outside

section
variable (balanced : Balanced machine s) (counted : Counted machine s)
include balanced counted

theorem Balanced.disable : Balanced machine (s.next machine .disable) := by
  have below := counted.paired
  apply balanced.next_iff_parts.mpr
  refine ⟨balanced.within, iff_of_true rfl ?_, fun line valid => ?_, False.elim⟩
  · simp [System.next]
    omega
  · simp only [System.next, lineDisables_append, lineEnables_append]
    exact balanced.lines line valid

theorem Balanced.enable_iff (paired : Paired s .enable) :
    Balanced machine (s.next machine .enable) ↔ Kept machine s .enable := by
  have more : s.enables < s.disables := paired
  have on : s.irq.masked = true := balanced.masked.mpr more
  have masked : (irqEnable s.irq).masked = true ↔ (s.disables - s.enables) % 2 ^ 32 ≠ 1 := by
    have last : s.irq.irqGlobalState - 1 = 0 ↔ (s.disables - s.enables) % 2 ^ 32 = 1 := by
      rw [counted.global, balanced.leaks counted, Nat.add_zero, ← ofNat_pred (by omega), BitVec.ofNat_eq_ofNat,
        ← BitVec.toNat_inj]
      simp only [BitVec.toNat_ofNat]
      omega
    unfold irqEnable
    rw [on, ne_eq, ← last]
    simp
  rw [balanced.next_iff_parts]
  simp only [System.next, disables_append, enables_append, lineDisables_append, lineEnables_append]
  change _ ∧ ((irqEnable s.irq).masked = true ↔ s.enables + 1 < s.disables) ∧ _ ∧ (False → _) ↔ (_ → _)
  rw [masked]
  constructor
  · rintro ⟨-, same, -⟩
    exact same.mpr
  · intro kept
    refine ⟨balanced.within, ⟨fun other => ?_, kept⟩, balanced.lines, False.elim⟩
    by_contra last
    have one : s.disables - s.enables = 1 := by omega
    exact other (by rw [one]; rfl)

theorem Balanced.outside_iff (call : Call) (outside : call.Outside machine)
    (settles : call.perform machine s.irq = s.irq.settle) : Balanced machine (s.next machine call) ↔ s.Counts := by
  have kind : call ≠ .disable ∧ call ≠ .enable := by
    constructor <;> rintro rfl <;> exact outside
  have numbers (line : ℕ) (valid : line < CPU_NUM_IRQ machine) :
      call ≠ .disableLine line ∧ call ≠ .enableLine line := by
    constructor <;> rintro rfl <;> exact outside ⟨by omega, Int.ofNat_lt.mpr valid⟩
  have same : s.irq.settle = s.irq ↔ s.Counts := by
    rw [← balanced.counts_iff counted, ← balanced.masked]
    constructor
    · intro kept
      rw [← settle_masked, kept]
    · intro agrees
      have equal : decide (s.irq.irqGlobalState ≠ 0) = s.irq.masked := Bool.eq_iff_iff.mpr agrees
      unfold Interrupts.settle
      rw [equal]
  rw [balanced.next_iff_parts, settles, ← same]
  constructor
  · exact fun parts => parts.2.2.2 outside
  · intro kept
    rw [kept]
    refine ⟨balanced.within, ?_, fun line valid => ?_, fun _ => rfl⟩
    · simp only [System.next, disables_append, enables_append, if_neg kind.1, if_neg kind.2]
      exact balanced.masked
    · have effective : ¬(Entry.mk call s.irq (call.perform machine s.irq)).Effective line :=
        fun both => (numbers line valid).2 both.1
      simp only [System.next, lineDisables_append, lineEnables_append, if_neg (numbers line valid).1, if_neg effective]
      exact balanced.lines line valid

/-- A call that leaves a line to be enabled as it says keeps the balance when the counter of 32 bits has not wrapped. -/
theorem Balanced.inside_iff (call : Call) {after : Interrupts} (kind : call ≠ .disable ∧ call ≠ .enable)
    (inside : ¬call.Outside machine) (settles : call.perform machine s.irq = after.settle)
    (global : after.irqGlobalState = s.irq.irqGlobalState) (strayed : after.strayed = s.irq.strayed) :
    Balanced machine (s.next machine call) ↔ s.Counts ∧ ∀ line < CPU_NUM_IRQ machine,
      after.lineEnabled line = true ↔
        (s.next machine call).lineDisables line ≤ (s.next machine call).lineEnables line := by
  rw [balanced.next_iff_parts, settles, ← balanced.counts_iff counted, settle_masked, global]
  simp only [System.next, disables_append, enables_append, if_neg kind.1, if_neg kind.2, settle_strayed,
    settle_lineEnabled, strayed, balanced.within, Nat.add_zero, true_and]
  constructor
  · exact fun parts => ⟨parts.1, parts.2.1⟩
  · exact fun parts => ⟨parts.1, parts.2, fun outside => absurd outside inside⟩

theorem Balanced.disableLine_iff (line : Int) :
    Balanced machine (s.next machine (.disableLine line)) ↔ Kept machine s (.disableLine line) := by
  rcases line_cases machine line with large | negative | ⟨number, valid, rfl⟩
  · refine iff_of_false (fun next => ?_) fun kept => large kept.2.1
    have none := next.leaks (@Counted.next machine s counted (.disableLine line) trivial)
    have one : (if Call.Leaks machine (.disableLine line) then 1 else 0) = 1 := if_pos large
    rw [System.next, leaks_append, one] at none
    omega
  · refine iff_of_false (fun next => ?_) fun kept => absurd kept.1 (by omega)
    have within := next.within
    simp only [System.next, Call.perform, irqDisableLine_negative negative, settle_strayed] at within
    exact Bool.noConfusion within
  · have small : (0 : Int) ≤ number ∧ (number : Int) < CPU_NUM_IRQ machine := ⟨by omega, Int.ofNat_lt.mpr valid⟩
    rw [balanced.inside_iff counted (.disableLine number) ⟨nofun, nofun⟩ (not_not_intro small)
      (irqDisableLine_valid valid) rfl rfl]
    refine ⟨fun parts => ⟨small.1, small.2, parts.1⟩, fun kept => ⟨kept.2.2, fun line inside => ?_⟩⟩
    have effective (after : Interrupts) : ¬(Entry.mk (.disableLine number) s.irq after).Effective line :=
      fun both => nomatch both.1
    simp only [System.next, lineDisables_append, lineEnables_append, lineEnabled_writeClrena, if_neg (effective _)]
    by_cases same : line = number
    · subst same
      have below := counted.effective line inside
      simp
      omega
    · have other : ¬Call.disableLine number = .disableLine line := by
        intro equal
        cases equal
        exact same rfl
      rw [if_neg other, decide_eq_true same, Bool.and_true]
      exact balanced.lines line inside

theorem Balanced.enableLine_iff (line : Int) :
    Balanced machine (s.next machine (.enableLine line)) ↔ Kept machine s (.enableLine line) := by
  rcases line_cases machine line with large | negative | ⟨number, valid, rfl⟩
  · have positive : 0 ≤ line := by
      have := Int.natCast_nonneg (CPU_NUM_IRQ machine)
      omega
    rw [balanced.outside_iff counted (.enableLine line) (fun inside => large inside.2) (irqEnableLine_large large)]
    exact ⟨fun counts => ⟨positive, counts, fun small => absurd small large⟩, fun kept => kept.2.1⟩
  · refine iff_of_false (fun next => ?_) fun kept => absurd kept.1 (by omega)
    have within := next.within
    simp only [System.next, Call.perform, irqEnableLine_negative negative, settle_strayed] at within
    exact Bool.noConfusion within
  · have small : (0 : Int) ≤ number ∧ (number : Int) < CPU_NUM_IRQ machine := ⟨by omega, Int.ofNat_lt.mpr valid⟩
    have below := counted.effective number valid
    have state := counted.line number valid
    have other (line : ℕ) : ¬Call.enableLine number = .disableLine line := nofun
    have kept_iff : Kept machine s (.enableLine number) ↔ s.Counts ∧
        (s.lineEnables number + 1 < s.lineDisables number →
          (s.lineDisables number - s.lineEnables number) % 2 ^ 8 ≠ 1) :=
      ⟨fun kept => ⟨kept.2.1, kept.2.2 small.2⟩, fun both => ⟨small.1, both.1, fun _ => both.2⟩⟩
    rw [kept_iff]
    have state_toNat : (s.irq.irqState number).toNat = (s.lineDisables number - s.lineEnables number) % 2 ^ 8 := by
      rw [state, BitVec.toNat_ofNat]
    by_cases zero : s.irq.irqState number = 0
    · rw [balanced.inside_iff counted (.enableLine number) ⟨nofun, nofun⟩ (not_not_intro small)
        (irqEnableLine_zero valid zero) rfl rfl]
      have ineffective (after : Interrupts) (line : ℕ) :
          ¬(Entry.mk (.enableLine number) s.irq after).Effective line := by
        rintro ⟨same, counts⟩
        cases same
        exact counts zero
      have multiple : (s.lineDisables number - s.lineEnables number) % 2 ^ 8 = 0 := by
        rw [← state_toNat, zero]
        rfl
      refine and_congr_right fun _ => iff_of_true (fun line inside => ?_) fun _ => by omega
      simp only [System.next, lineDisables_append, lineEnables_append, if_neg (ineffective _ _), if_neg (other _)]
      exact balanced.lines line inside
    · have effective (after : Interrupts) (line : ℕ) :
          (Entry.mk (.enableLine number) s.irq after).Effective line ↔ line = number := by
        constructor
        · rintro ⟨same, -⟩
          cases same
          rfl
        · rintro rfl
          exact ⟨rfl, zero⟩
      have not_multiple : (s.lineDisables number - s.lineEnables number) % 2 ^ 8 ≠ 0 := by
        intro multiple
        exact zero (BitVec.eq_of_toNat_eq (state_toNat.trans multiple))
      have last : s.irq.irqState number - 1 = 0 ↔ (s.lineDisables number - s.lineEnables number) % 2 ^ 8 = 1 := by
        have bound := (s.irq.irqState number).isLt
        rw [← BitVec.toNat_inj, BitVec.toNat_sub, state_toNat]
        simp
        omega
      rw [balanced.inside_iff counted (.enableLine number) ⟨nofun, nofun⟩ (not_not_intro small)
        (irqEnableLine_counted valid zero) (by split_ifs <;> rfl) (by split_ifs <;> rfl)]
      refine and_congr_right fun _ => ?_
      simp only [System.next, lineDisables_append, lineEnables_append, effective, if_neg (other _), Nat.add_zero, last]
      have off : s.irq.lineEnabled number = false := by
        apply Bool.eq_false_iff.mpr
        intro on
        have reached := (balanced.lines number valid).mp on
        exact not_multiple (by rw [Nat.sub_eq_zero_of_le reached]; rfl)
      constructor
      · intro lines more one
        have enabled := lines number valid
        rw [if_pos one, lineEnabled_writeSetena, if_pos rfl, decide_eq_true rfl, Bool.or_true] at enabled
        have := enabled.mp rfl
        omega
      · intro kept line inside
        by_cases same : line = number
        · subst same
          rw [if_pos rfl]
          by_cases one : (s.lineDisables line - s.lineEnables line) % 2 ^ 8 = 1
          · rw [if_pos one, lineEnabled_writeSetena, decide_eq_true rfl, Bool.or_true]
            exact iff_of_true rfl (by by_contra more; exact kept (by omega) one)
          · rw [if_neg one]
            refine iff_of_false (fun on => ?_) fun reached => ?_
            · exact Bool.false_ne_true (off.symm.trans on)
            · have single : s.lineDisables line - s.lineEnables line = 1 := by omega
              exact one (by rw [single]; rfl)
        · rw [if_neg same, Nat.add_zero]
          by_cases one : (s.lineDisables number - s.lineEnables number) % 2 ^ 8 = 1
          · rw [if_pos one, lineEnabled_writeSetena, decide_eq_false same, Bool.or_false]
            exact balanced.lines line inside
          · rw [if_neg one]
            exact balanced.lines line inside

/-- A call keeps the balance exactly when it keeps the lines. -/
theorem Balanced.next_iff (paired : Paired s call) : Balanced machine (s.next machine call) ↔ Kept machine s call := by
  cases call with
  | disable => exact iff_of_true (balanced.disable counted) trivial
  | enable => exact balanced.enable_iff counted paired
  | disableLine line => exact balanced.disableLine_iff counted line
  | enableLine line => exact balanced.enableLine_iff counted line

end

end Balance

/-- In a run that does not enable more often than it disables, interrupts and lines are masked as the calls say after each
call exactly when each call is one that keeps this. -/
theorem irq_masking_balanced_iff (machine : Machine) (masked : Bool) (enabled : ℕ → BitVec 32) (calls : List Call)
    (paired : Guarded (step machine) Paired (.start machine masked enabled) calls) :
    (∀ first, first <+: calls → ∀ s, run (step machine) (.start machine masked enabled) first = some s →
      Balanced machine s) ↔ Guarded (step machine) (Kept machine) (.start machine masked enabled) calls := by
  obtain ⟨final, ran, -⟩ := run_total_of_guarded (step machine) (fun _ _ => True) (fun _ => True)
    (fun s call _ _ => ⟨_, rfl, trivial⟩) (.start machine masked enabled) calls trivial (.of_forall fun _ _ _ => trivial)
  obtain ⟨counted, balanced⟩ := counted_start machine masked enabled
  refine reached_iff_guarded (step machine) Paired (Kept machine) (Counted machine) (Balanced machine) ?_
    (.start machine masked enabled) final calls counted balanced paired ran
  intro s call next counted paired stepped
  obtain rfl : s.next machine call = next := Option.some.inj stepped
  exact ⟨counted.next paired, fun balanced => balanced.next_iff counted paired⟩

/-- A line is enabled while interrupts are disabled. -/
theorem irq_masking_balanced_iff_nested :
    let start := System.start .stm32 false fun _ => 0
    let calls := [.disable, .enableLine 3, .enable]
    Guarded (step .stm32) Paired start calls ∧
      ∀ first, first <+: calls → ∀ s, run (step .stm32) start first = some s → Balanced .stm32 s := by
  have paired : Guarded (step .stm32) Paired (.start .stm32 false fun _ => 0) [.disable, .enableLine 3, .enable] :=
    .cons trivial rfl (.cons trivial rfl (.cons (show 0 < 1 by decide) rfl trivial))
  refine ⟨paired, (irq_masking_balanced_iff .stm32 false (fun _ => 0) _ paired).mpr ?_⟩
  refine .cons trivial rfl (.cons ⟨by decide, ?_, ?_⟩ rfl (.cons ?_ rfl trivial))
  · exact fun _ => show (1 - 0) % 2 ^ 32 ≠ 0 by decide
  · exact fun _ more => absurd (show 0 + 1 < 1 from more) (by decide)
  · exact fun more => absurd (show 0 + 1 < 1 from more) (by decide)

/-- `irq_disable_line` masks interrupts for good when it refuses a line. -/
theorem irq_disable_line_leaks_mask :
    let start := System.start .tsb false fun _ => 0
    run (step .tsb) start [.disableLine 138] = some (start.next .tsb (.disableLine 138)) ∧
      ¬Balanced .tsb (start.next .tsb (.disableLine 138)) := by
  refine ⟨rfl, fun balanced => ?_⟩
  have masked : (irqDisableLine .tsb (System.start .tsb false fun _ => 0).irq 138).masked = true := by
    rw [irqDisableLine_large (by decide)]
    rfl
  exact absurd (show 0 < 0 from balanced.masked.mp masked) (Nat.lt_irrefl 0)

end Phabos.Irq
