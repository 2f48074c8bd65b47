import Phabos.Construction.Unipro.Mailbox
import Phabos.Library.Masks

namespace Phabos.Mailbox
open Library
open Function (update update_of_ne update_self)

/-- The CPort that a value of the mailbox stands for -/
def UniproDevice.cport (s : UniproDevice) : ℕ := s.mailbox.toNat - 1

/-- A bit of the interrupt registers is one of the two bits of a CPort. -/
abbrev Own (cportid word bit : ℕ) : Prop := word = cportid / 16 ∧ bit / 2 = cportid % 16

/-- No interrupt of a CPort is pending. -/
def UniproDevice.Clear (s : UniproDevice) (cportid : ℕ) : Prop :=
  ∀ word bit, Own cportid word bit → (s.intBef word).getLsbD bit = false

/-- Only this CPort is touched, and it is connected when its status says so. -/
structure ConnectsCport (s after : UniproDevice) (cportid : ℕ) : Prop where
  e2efc : ∀ word bit, ¬(word = cportid / 32 ∧ bit = cportid % 32) →
    (after.e2efc word).getLsbD bit = (s.e2efc word).getLsbD bit
  intBef : ∀ word bit, ¬Own cportid word bit → (after.intBef word).getLsbD bit = (s.intBef word).getLsbD bit
  intEn : ∀ word bit, ¬Own cportid word bit → (after.intEn word).getLsbD bit = (s.intEn word).getLsbD bit
  others : ∀ other, other ≠ cportid → after.isConnected other = s.isConnected other
  accessed : ∀ other ∈ after.accessed, other ∈ s.accessed ∨ other = cportid
  unconnected : cportGetStatus s cportid ≠ CPORT_STATUS_CONNECTED → after.isConnected cportid = s.isConnected cportid
  connected : cportGetStatus s cportid = CPORT_STATUS_CONNECTED → after.isConnected cportid = true ∧
    (after.intEn (cportid / 16)).getLsbD (2 * (cportid % 16)) = true ∧ after.Clear cportid ∧
      .attach (s.cportIrqBase + cportid) cportid ∈ after.irqs ∧ .enableLine (s.cportIrqBase + cportid) ∈ after.irqs

/-- The CPort of the mailbox is connected, and nothing happens when there is none. -/
structure ConnectsOne (s after : UniproDevice) : Prop where
  nothing : s.mailbox = 0 ∨ s.cportCount < s.mailbox.toNat → after.e2efc = s.e2efc ∧ after.intBef = s.intBef ∧
    after.intEn = s.intEn ∧ after.isConnected = s.isConnected ∧ after.accessed = s.accessed
  one : s.mailbox ≠ 0 → s.mailbox.toNat ≤ s.cportCount → ConnectsCport s after s.cport

/-- The shift reaches the bits of a CPort that gets connected, or they are clear. A number behind the CPorts says that it
is not connected, and its flow control is on. -/
structure Connectable (s : UniproDevice) : Prop where
  inside : s.mailbox ≠ 0 → s.mailbox.toNat ≤ s.cportCount → cportGetStatus s s.cport = CPORT_STATUS_CONNECTED →
    s.cport % 128 < 16 ∨ s.Clear s.cport
  outside : s.cportCount < s.mailbox.toNat → cportGetStatus s s.cport ≠ CPORT_STATUS_CONNECTED ∧
    (s.e2efc (s.cport / 32)).getLsbD (s.cport % 32) = true

section Bits
variable {cportid bit : ℕ}

theorem getLsbD_one (position : ℕ) (small : position < 32) (bit : ℕ) :
    (1#32 <<< position).getLsbD bit = decide (bit = position) := by
  rw [← BitVec.twoPow_eq, BitVec.getLsbD_twoPow, decide_eq_true small, Bool.true_and]
  exact decide_eq_decide.mpr eq_comm

theorem getLsbD_mask (inside : bit < 32) :
    (shiftLeft 3 (cportid * 2)).getLsbD bit = decide (cportid % 128 < 16 ∧ bit / 2 = cportid % 16) := by
  have three (position : ℕ) (small : position < 32) : (3 : BitVec 32).getLsbD position = decide (position < 2) := by
    rw [show (3 : BitVec 32) = BitVec.ofNat 32 (2 ^ 2 - 1) from rfl, getLsbD_low, decide_eq_true small, Bool.true_and]
  unfold shiftLeft
  rw [BitVec.getLsbD_shiftLeft, three _ (by omega), decide_eq_true inside, Bool.true_and]
  by_cases low : bit < cportid * 2 % 256
  · rw [decide_eq_true low]
    symm
    rw [Bool.not_true, Bool.false_and, decide_eq_false_iff_not]
    omega
  · rw [decide_eq_false low, Bool.not_false, Bool.true_and]
    apply decide_eq_decide.mpr
    omega

theorem getLsbD_cleared {word : ℕ} (reg : ℕ → BitVec 32) (other : ¬Own cportid word bit) :
    (update reg (cportid / 16) (reg (cportid / 16) &&& ~~~shiftLeft 3 (cportid * 2)) word).getLsbD bit =
      (reg word).getLsbD bit := by
  by_cases here : word = cportid / 16
  · subst here
    rw [update_self]
    by_cases inside : bit < 32
    · have apart : ¬(cportid % 128 < 16 ∧ bit / 2 = cportid % 16) := fun own => other ⟨rfl, own.2⟩
      rw [BitVec.getLsbD_and, BitVec.getLsbD_not, getLsbD_mask inside, decide_eq_false apart, decide_eq_true inside]
      simp
    · have beyond := Nat.le_of_not_lt inside
      rw [BitVec.getLsbD_of_ge _ _ beyond, BitVec.getLsbD_of_ge _ _ beyond]
  · rw [update_of_ne here]

theorem getLsbD_enabled {word number position : ℕ} (reg : ℕ → BitVec 32) (small : position < 32)
    (other : ¬(word = number ∧ bit = position)) :
    (update reg number (reg number ||| 1#32 <<< position) word).getLsbD bit = (reg word).getLsbD bit := by
  by_cases here : word = number
  · subst here
    have apart : ¬bit = position := fun same => other ⟨rfl, same⟩
    rw [update_self, BitVec.getLsbD_or, getLsbD_one position small, decide_eq_false apart, Bool.or_false]
  · rw [update_of_ne here]

end Bits

section Connect
variable {s : UniproDevice} {cportid : ℕ}

theorem clearInt_clear (cportid : ℕ) : (clearInt s cportid).Clear cportid ↔ cportid % 128 < 16 ∨ s.Clear cportid := by
  have after : (clearInt s cportid).intBef =
      update s.intBef (cportid / 16) (s.intBef (cportid / 16) &&& ~~~shiftLeft 3 (cportid * 2)) := rfl
  have bits (bit : ℕ) (inside : bit < 32) (own : bit / 2 = cportid % 16) :
      ((clearInt s cportid).intBef (cportid / 16)).getLsbD bit =
        ((s.intBef (cportid / 16)).getLsbD bit && !decide (cportid % 128 < 16)) := by
    rw [after, update_self, BitVec.getLsbD_and, BitVec.getLsbD_not, getLsbD_mask inside, decide_eq_true inside]
    simp [own]
  constructor
  · intro clear
    by_cases reached : cportid % 128 < 16
    · exact Or.inl reached
    · right
      rintro word bit ⟨rfl, own⟩
      have inside : bit < 32 := by omega
      have zero := clear _ bit ⟨rfl, own⟩
      rw [bits bit inside own, decide_eq_false reached] at zero
      simpa using zero
  · rintro reached word bit ⟨rfl, own⟩
    have inside : bit < 32 := by omega
    rw [bits bit inside own]
    rcases reached with reached | clear
    · rw [decide_eq_true reached, Bool.not_true, Bool.and_false]
    · rw [clear _ bit ⟨rfl, own⟩, Bool.false_and]

section
variable (some : s.mailbox ≠ 0)
include some

theorem cport_eq : (s.mailbox - 1).toNat = s.cport := by
  have positive : s.mailbox.toNat ≠ 0 := fun zero => some (BitVec.eq_of_toNat_eq zero)
  have one : (1 : BitVec 32) ≤ s.mailbox := by
    rw [BitVec.le_def]
    change 1 ≤ s.mailbox.toNat
    omega
  rw [BitVec.toNat_sub_of_le one]
  rfl

theorem irqUnipro_some : irqUnipro s =
    { configureConnectedCport (enableE2efc (s.call (.clear s.irq)) s.cport) s.cport with mailbox := 0 } := by
  have unfolded : irqUnipro s = { configureConnectedCport (enableE2efc (s.call (.clear s.irq)) (s.mailbox - 1).toNat)
      (s.mailbox - 1).toNat with mailbox := 0 } := if_neg some
  rw [unfolded, cport_eq some]

theorem irqUnipro_unconnected (away : cportGetStatus s s.cport ≠ CPORT_STATUS_CONNECTED) :
    irqUnipro s = { enableE2efc (s.call (.clear s.irq)) s.cport with mailbox := 0 } := by
  have skipped : configureConnectedCport (enableE2efc (s.call (.clear s.irq)) s.cport) s.cport =
      enableE2efc (s.call (.clear s.irq)) s.cport := if_neg away
  rw [irqUnipro_some some, skipped]

theorem irqUnipro_behind (there : cportGetStatus s s.cport = CPORT_STATUS_CONNECTED) (behind : ¬s.cport < s.cportCount) :
    (irqUnipro s).accessed = s.accessed ++ [s.cport] := by
  have access : configureConnectedCport (enableE2efc (s.call (.clear s.irq)) s.cport) s.cport = _ :=
    (if_pos there).trans (if_neg behind)
  rw [irqUnipro_some some, access]
  rfl

theorem irqUnipro_connected (there : cportGetStatus s s.cport = CPORT_STATUS_CONNECTED)
    (inside : s.cport < s.cportCount) :
    ∃ started : UniproDevice, irqUnipro s = { enableInt (clearInt started s.cport) s.cport with mailbox := 0 } ∧
      started.e2efc = (enableE2efc s s.cport).e2efc ∧ started.intBef = s.intBef ∧ started.intEn = s.intEn ∧
        started.isConnected = update s.isConnected s.cport true ∧
          started.accessed = s.accessed ++ [s.cport] ∧ started.cportIrqBase = s.cportIrqBase := by
  have access : configureConnectedCport (enableE2efc (s.call (.clear s.irq)) s.cport) s.cport = _ :=
    (if_pos there).trans (if_pos inside)
  rw [irqUnipro_some some, access]
  exact ⟨_, rfl, rfl, rfl, rfl, rfl, rfl, rfl⟩

theorem ConnectsCport.of_unconnected (away : cportGetStatus s s.cport ≠ CPORT_STATUS_CONNECTED) :
    ConnectsCport s (irqUnipro s) s.cport := by
  rw [irqUnipro_unconnected some away]
  exact {
    e2efc := fun word bit other => getLsbD_enabled s.e2efc (Nat.mod_lt _ (by decide)) other
    intBef := fun _ _ _ => rfl
    intEn := fun _ _ _ => rfl
    others := fun _ _ => rfl
    accessed := fun _ inside => Or.inl inside
    unconnected := fun _ => rfl
    connected := fun there => absurd there away }

/-- When the interrupt of a connected cport connects that cport alone. -/
theorem ConnectsCport.connected_iff (there : cportGetStatus s s.cport = CPORT_STATUS_CONNECTED)
    (inside : s.cport < s.cportCount) :
    ConnectsCport s (irqUnipro s) s.cport ↔ s.cport % 128 < 16 ∨ s.Clear s.cport := by
  obtain ⟨started, after, e2efc, intBef, intEn, isConnected, accessed, base⟩ := irqUnipro_connected some there inside
  have pending : (irqUnipro s).Clear s.cport ↔ s.cport % 128 < 16 ∨ s.Clear s.cport := by
    have cleared := @clearInt_clear started s.cport
    have kept : started.Clear s.cport ↔ s.Clear s.cport := by
      unfold UniproDevice.Clear
      rw [intBef]
    rw [after, ← kept]
    exact cleared
  constructor
  · intro holds
    exact pending.mp (holds.connected there).2.2.1
  · intro reached
    have clear := pending.mpr reached
    have position : 2 * (s.cport % 16) < 32 := by omega
    refine {
      e2efc := fun word bit other => ?_
      intBef := fun word bit other => ?_
      intEn := fun word bit other => ?_
      others := fun other different => ?_
      accessed := fun other listed => ?_
      unconnected := fun away => absurd there away
      connected := fun _ => ⟨?_, ?_, clear, ?_, ?_⟩ }
    · rw [after]
      change (started.e2efc word).getLsbD bit = _
      rw [e2efc]
      exact getLsbD_enabled s.e2efc (Nat.mod_lt _ (by decide)) other
    · rw [after, ← intBef]
      exact getLsbD_cleared started.intBef other
    · have apart : ¬(word = s.cport / 16 ∧ bit = 2 * (s.cport % 16)) := by
        rintro ⟨same, last⟩
        exact other ⟨same, by omega⟩
      rw [after, ← intEn]
      exact (getLsbD_enabled (clearInt started s.cport).intEn position apart).trans (getLsbD_cleared started.intEn other)
    · rw [after]
      change started.isConnected other = _
      rw [isConnected, update_of_ne different]
    · rw [after] at listed
      change other ∈ started.accessed at listed
      rw [accessed, List.mem_append, List.mem_singleton] at listed
      exact listed
    · rw [after]
      change started.isConnected s.cport = true
      rw [isConnected, update_self]
    · rw [after]
      change ((update _ (s.cport / 16) _ : ℕ → BitVec 32) (s.cport / 16)).getLsbD (2 * (s.cport % 16)) = true
      rw [update_self, BitVec.getLsbD_or, getLsbD_one _ position, decide_eq_true rfl, Bool.or_true]
    · rw [after, ← base]
      exact List.mem_append_left _ (List.mem_append_right _ (List.mem_singleton_self _))
    · rw [after, ← base]
      exact List.mem_append_right _ (List.mem_singleton_self _)

end

theorem enableE2efc_eq_iff (cportid : ℕ) :
    (enableE2efc s cportid).e2efc = s.e2efc ↔ (s.e2efc (cportid / 32)).getLsbD (cportid % 32) = true := by
  have small : cportid % 32 < 32 := Nat.mod_lt _ (by decide)
  have after : (enableE2efc s cportid).e2efc = update s.e2efc (cportid / 32)
      (s.e2efc (cportid / 32) ||| 1#32 <<< (cportid % 32)) := rfl
  constructor
  · intro same
    rw [← same, after, update_self, BitVec.getLsbD_or, getLsbD_one _ small, decide_eq_true rfl, Bool.or_true]
  · intro on
    rw [after]
    apply Function.update_eq_self_iff.mpr
    apply BitVec.eq_of_getLsbD_eq
    intro bit _
    rw [BitVec.getLsbD_or, getLsbD_one _ small]
    by_cases here : bit = cportid % 32
    · rw [here, on, Bool.true_or]
    · rw [decide_eq_false here, Bool.or_false]

/-- One run of the interrupt connects exactly the CPort of the mailbox when and only when it is connectable. -/
theorem mailbox_connects_one_iff (s : UniproDevice) : ConnectsOne s (irqUnipro s) ↔ Connectable s := by
  constructor
  · intro holds
    refine { inside := ?_, outside := ?_ }
    · intro some small there
      have positive : s.mailbox.toNat ≠ 0 := fun zero => some (BitVec.eq_of_toNat_eq zero)
      have inside : s.cport < s.cportCount := by
        unfold UniproDevice.cport
        omega
      exact (ConnectsCport.connected_iff some there inside).mp (holds.one some small)
    · intro large
      have some : s.mailbox ≠ 0 := by
        intro none
        rw [none] at large
        exact absurd large (Nat.not_lt_zero _)
      have behind : ¬s.cport < s.cportCount := by
        unfold UniproDevice.cport
        omega
      obtain ⟨e2efc, -, -, -, accessed⟩ := holds.nothing (Or.inr large)
      have away : cportGetStatus s s.cport ≠ CPORT_STATUS_CONNECTED := by
        intro there
        rw [irqUnipro_behind some there behind] at accessed
        simp at accessed
      rw [irqUnipro_unconnected some away] at e2efc
      exact ⟨away, (enableE2efc_eq_iff s.cport).mp e2efc⟩
  · intro condition
    refine { nothing := ?_, one := ?_ }
    · intro away
      by_cases none : s.mailbox = 0
      · have after : irqUnipro s = s.call (.clear s.irq) := if_pos none
        rw [after]
        exact ⟨rfl, rfl, rfl, rfl, rfl⟩
      · have large := away.resolve_left none
        obtain ⟨unconnected, on⟩ := condition.outside large
        rw [irqUnipro_unconnected none unconnected]
        exact ⟨(enableE2efc_eq_iff s.cport).mpr on, rfl, rfl, rfl, rfl⟩
    · intro some small
      have positive : s.mailbox.toNat ≠ 0 := fun zero => some (BitVec.eq_of_toNat_eq zero)
      have inside : s.cport < s.cportCount := by
        unfold UniproDevice.cport
        omega
      by_cases there : cportGetStatus s s.cport = CPORT_STATUS_CONNECTED
      · exact (ConnectsCport.connected_iff some there inside).mpr (condition.inside some small there)
      · exact ConnectsCport.of_unconnected some there

end Connect

/-- CPort 17 of 44 CPorts is connected by its number, with a pending interrupt. -/
def seventeen : UniproDevice :=
  ⟨1, 16, 44, 18, fun _ => 0, fun _ => 0, fun word => if word = 1 then 0xC else 0, fun _ => 0, fun _ => 0, fun _ => false,
    [], []⟩

/-- The pending interrupt is not cleared, since the mask is shifted out of the word. -/
theorem mailbox_keeps_pending : ¬ConnectsOne seventeen (irqUnipro seventeen) := by
  intro holds
  have clear := ((holds.one (by decide) (by decide)).connected (by decide)).2.2.1
  exact absurd (clear 1 2 (by decide)) (by decide)

end Phabos.Mailbox
