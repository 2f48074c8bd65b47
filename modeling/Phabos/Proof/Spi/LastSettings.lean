import Mathlib.Order.Bounds.Basic
import Phabos.Construction.Spi.Stm32
import Phabos.Library.Masks

namespace Phabos.Spi
open Library List Option

/-- The fields of the register that the setters write -/
inductive Field where
  | baudRate
  | frame
  | mode
  deriving DecidableEq, Repr

def Field.bits : Field → List ℕ
  | .baudRate => [3, 4, 5]
  | .frame => [11]
  | .mode => [0, 1]

/-- The register shows a setting: the smallest divider that gives no higher frequency, the length of a frame, or the
polarity and the phase of the clock. -/
def Field.Shows (clk cr1 : BitVec 32) : Field → BitVec 32 → Prop
  | .baudRate, freq =>
    IsLeast {number | number < 8 ∧ clk.toNat ≤ freq.toNat * 2 ^ (number + 1)} (cr1.extractLsb' 3 3).toNat
  | .frame, bpw => (bpw = 8 ∨ bpw = 16) ∧ cr1.getLsbD 11 = decide (bpw = 16)
  | .mode, number => number < 4 ∧ cr1.getLsbD 1 = number.getLsbD 1 ∧ cr1.getLsbD 0 = number.getLsbD 0

/-- The field that a call is for, and what it asks for -/
def Call.field : Call → Field
  | .setMode _ => .mode
  | .setBpw _ => .frame
  | .setMaxFreq _ _ => .baudRate

def Call.setting : Call → BitVec 32
  | .setMode mode => mode
  | .setBpw bpw => bpw
  | .setMaxFreq freq _ => freq

def Entry.setting (field : Field) (entry : Entry) : Option (BitVec 32) :=
  if entry.result = 0 ∧ entry.call.field = field then some entry.call.setting else none

/-- The setting of the last successful call for a field -/
def lastSetting (field : Field) (record : List Entry) : Option (BitVec 32) :=
  (record.filterMap (Entry.setting field)).getLast?

/-- Failed calls have changed nothing, each field shows its last setting, and the bits that no successful call was for
are as they were. -/
structure Right (spi : SpiMaster) (s : Bus) : Prop where
  failed : ∀ entry ∈ s.record, entry.result ≠ 0 → entry.after = entry.before
  shown : ∀ field, ∀ setting ∈ lastSetting field s.record, field.Shows spi.clk s.spi.cr1 setting
  others : ∀ bit, (∀ field : Field, bit ∈ field.bits → lastSetting field s.record = none) →
    s.spi.cr1.getLsbD bit = spi.cr1.getLsbD bit

/-- The mode is not 1 and has the phase that the register has before, and for a divider up to 16 the high bit of the
baud rate is clear before. -/
def Lasting (s : Bus) : Call → Prop
  | .setMode mode => mode < 4 → mode ≠ 1 ∧ s.spi.cr1.getLsbD 0 = mode.getLsbD 0
  | .setBpw _ => True
  | .setMaxFreq freq _ =>
    s.spi.clk.toNat ≤ 256 * freq.toNat → s.spi.cr1.getLsbD 5 = false ∨ 16 * freq.toNat < s.spi.clk.toNat

section Fields
variable {clk cr1 other setting : BitVec 32} {field one two : Field}

theorem getLsbD_baudRate (bit : ℕ) (small : bit < 3) :
    (cr1.extractLsb' 3 3).getLsbD bit = cr1.getLsbD (3 + bit) := by
  simp [small]

theorem Field.shows_congr (same : ∀ bit ∈ field.bits, cr1.getLsbD bit = other.getLsbD bit) :
    field.Shows clk cr1 setting ↔ field.Shows clk other setting := by
  cases field with
  | baudRate =>
    have equal : cr1.extractLsb' 3 3 = other.extractLsb' 3 3 := by
      apply BitVec.eq_of_getLsbD_eq
      intro bit small
      rw [getLsbD_baudRate bit small, getLsbD_baudRate bit small]
      apply same
      simp [Field.bits]
      omega
    simp only [Field.Shows, equal]
  | frame =>
    have bit11 := same 11 (by simp [Field.bits])
    simp only [Field.Shows, bit11]
  | mode =>
    have bit0 := same 0 (by simp [Field.bits])
    have bit1 := same 1 (by simp [Field.bits])
    simp only [Field.Shows, bit0, bit1]

theorem Field.eq_of_mem_bits {bit : ℕ} (first : bit ∈ one.bits) (second : bit ∈ two.bits) : one = two := by
  cases one <;> cases two <;> simp [Field.bits] at first second <;> first | rfl | omega

end Fields

section Record
variable {field other : Field} {record : List Entry} {entry : Entry} {setting : BitVec 32}

theorem lastSetting_skip (none_here : entry.setting field = none) :
    lastSetting field (record ++ [entry]) = lastSetting field record := by
  simp [lastSetting, none_here]

theorem lastSetting_own (here : entry.setting field = some setting) :
    lastSetting field (record ++ [entry]) = some setting := by
  simp [lastSetting, here]

end Record

section Step
variable {spi after : SpiMaster} {s : Bus} {entry : Entry}

theorem Right.refuse (right : Right spi s) (failed : entry.result ≠ 0) (kept : entry.after = entry.before)
    (same : after.cr1 = s.spi.cr1) : Right spi ⟨after, s.record ++ [entry]⟩ := by
  have skipped (field : Field) : lastSetting field (s.record ++ [entry]) = lastSetting field s.record :=
    lastSetting_skip (if_neg fun both => failed both.1)
  constructor
  · intro other there
    rcases mem_append.mp there with old | new
    · exact right.failed other old
    · intro _
      rw [mem_singleton.mp new]
      exact kept
  · intro field setting last
    rw [skipped] at last
    rw [same]
    exact right.shown field setting last
  · intro bit unset
    simp only [skipped] at unset
    rw [same]
    exact right.others bit unset

/-- A successful call that writes the bits of its field keeps the register right exactly when the field shows the new
setting. -/
theorem Right.write_iff (right : Right spi s) (done : entry.result = 0)
    (outside : ∀ bit ∉ entry.call.field.bits, after.cr1.getLsbD bit = s.spi.cr1.getLsbD bit) :
    Right spi ⟨after, s.record ++ [entry]⟩ ↔ entry.call.field.Shows spi.clk after.cr1 entry.call.setting := by
  have set : lastSetting entry.call.field (s.record ++ [entry]) = some entry.call.setting :=
    lastSetting_own (if_pos ⟨done, rfl⟩)
  have skipped (other : Field) (apart : other ≠ entry.call.field) :
      lastSetting other (s.record ++ [entry]) = lastSetting other s.record :=
    lastSetting_skip (if_neg fun both => apart both.2.symm)
  constructor
  · intro next
    exact next.shown _ _ set
  · intro shows
    constructor
    · intro other there
      rcases mem_append.mp there with old | new
      · exact right.failed other old
      · rw [mem_singleton.mp new]
        exact fun failed => absurd done failed
    · intro other value last
      by_cases same : other = entry.call.field
      · subst same
        obtain rfl := some.inj (set.symm.trans last)
        exact shows
      · rw [skipped other same] at last
        refine (Field.shows_congr fun bit inside => ?_).mpr (right.shown other value last)
        exact outside bit fun here => same (Field.eq_of_mem_bits inside here)
    · intro bit unset
      have free : bit ∉ entry.call.field.bits := by
        intro inside
        cases set.symm.trans (unset _ inside)
      refine (outside bit free).trans (right.others bit fun other inside => ?_)
      rw [← skipped other fun same => free (same ▸ inside)]
      exact unset other inside

end Step

section Setters
variable {clk freq cr1 mask value mode bpw : BitVec 32} {bits : List ℕ}

theorem replaced_outside (masked : ∀ bit < 32, mask.getLsbD bit = true → bit ∈ bits)
    (valued : ∀ bit < 32, value.getLsbD bit = true → bit ∈ bits) :
    ∀ bit ∉ bits, (cr1 &&& ~~~mask ||| value).getLsbD bit = cr1.getLsbD bit := by
  intro bit outside
  have clear (word : BitVec 32) (within : ∀ bit < 32, word.getLsbD bit = true → bit ∈ bits) :
      word.getLsbD bit = false := by
    apply Bool.eq_false_iff.mpr
    exact fun set => outside (within bit (BitVec.lt_of_getLsbD set) set)
  rw [getLsbD_replaced, clear mask masked, clear value valued]
  simp

theorem modeValue_cases (mode : BitVec 32) :
    modeValue mode = none ∧ ¬mode < 4 ∨
      ∃ value, modeValue mode = some value ∧ (mode, value) ∈ [(0, 0), (1, 2), (2, 2), ((3 : BitVec 32), (2 : BitVec 32))] := by
  unfold modeValue
  split_ifs with zero one two three
  · subst zero
    exact .inr ⟨0, rfl, by decide⟩
  · subst one
    exact .inr ⟨_, rfl, by decide⟩
  · subst two
    exact .inr ⟨_, rfl, by decide⟩
  · subst three
    exact .inr ⟨_, rfl, by decide⟩
  · refine .inl ⟨rfl, fun small => ?_⟩
    bv_omega

theorem mode_mask_inside : ∀ bit < 32, SPI_MODE_MASK.getLsbD bit = true → bit ∈ Field.mode.bits := by decide

theorem modeValue_inside (mode : BitVec 32) :
    ∀ value ∈ modeValue mode, ∀ bit < 32, value.getLsbD bit = true → bit ∈ Field.mode.bits := by
  intro value there
  rcases modeValue_cases mode with ⟨none_found, -⟩ | ⟨_, found, listed⟩
  · cases none_found.symm.trans there
  · obtain rfl := some.inj (found.symm.trans there)
    simp only [mem_cons, Prod.mk.injEq, not_mem_nil, or_false] at listed
    rcases listed with ⟨-, rfl⟩ | ⟨-, rfl⟩ | ⟨-, rfl⟩ | ⟨-, rfl⟩ <;> decide

theorem mode_shows_iff (there : (mode, value) ∈ [(0, 0), (1, 2), (2, 2), ((3 : BitVec 32), (2 : BitVec 32))]) :
    Field.mode.Shows clk (cr1 &&& ~~~SPI_MODE_MASK ||| value) mode ↔ mode ≠ 1 ∧ cr1.getLsbD 0 = mode.getLsbD 0 := by
  have mask0 : SPI_MODE_MASK.getLsbD 0 = false := by decide
  have mask1 : SPI_MODE_MASK.getLsbD 1 = true := by decide
  simp only [Field.Shows, getLsbD_replaced, mask0, mask1]
  simp only [mem_cons, Prod.mk.injEq, not_mem_nil, or_false] at there
  rcases there with ⟨rfl, rfl⟩ | ⟨rfl, rfl⟩ | ⟨rfl, rfl⟩ | ⟨rfl, rfl⟩ <;> simp

theorem bpwValue_cases (bpw : BitVec 32) :
    bpwValue bpw = none ∨
      ∃ value, bpwValue bpw = some value ∧ (bpw, value) ∈ [((8 : BitVec 32), (0 : BitVec 32)), (16, SPI_CR1_DFF)] := by
  unfold bpwValue
  split_ifs with eight sixteen
  · exact .inr ⟨0, rfl, by simp [eight]⟩
  · exact .inr ⟨_, rfl, by simp [sixteen]⟩
  · exact .inl rfl

theorem bpw_mask_inside : ∀ bit < 32, SPI_BPW_MASK.getLsbD bit = true → bit ∈ Field.frame.bits := by decide

theorem bpwValue_inside (bpw : BitVec 32) :
    ∀ value ∈ bpwValue bpw, ∀ bit < 32, value.getLsbD bit = true → bit ∈ Field.frame.bits := by
  intro value there
  rcases bpwValue_cases bpw with none_found | ⟨_, found, listed⟩
  · cases none_found.symm.trans there
  · obtain rfl := some.inj (found.symm.trans there)
    simp only [mem_cons, Prod.mk.injEq, not_mem_nil, or_false] at listed
    rcases listed with ⟨-, rfl⟩ | ⟨-, rfl⟩ <;> decide

theorem frame_shows (there : (bpw, value) ∈ [((8 : BitVec 32), (0 : BitVec 32)), (16, SPI_CR1_DFF)]) :
    Field.frame.Shows clk (cr1 &&& ~~~SPI_BPW_MASK ||| value) bpw := by
  have mask11 : SPI_BPW_MASK.getLsbD 11 = true := by decide
  have dff11 : SPI_CR1_DFF.getLsbD 11 = true := by decide
  simp only [Field.Shows, getLsbD_replaced, mask11]
  simp only [mem_cons, Prod.mk.injEq, not_mem_nil, or_false] at there
  rcases there with ⟨rfl, rfl⟩ | ⟨rfl, rfl⟩ <;> simp [dff11]

theorem quot_le_iff (positive : 0 < freq) (divider : ℕ) :
    (quot clk freq).toNat ≤ divider ↔ clk.toNat ≤ freq.toNat * divider := by
  have some_freq : 0 < freq.toNat := positive
  have split := Nat.div_add_mod clk.toNat freq.toNat
  have rest := Nat.mod_lt clk.toNat some_freq
  have bound := clk.isLt
  unfold quot
  by_cases even : clk % freq = 0
  · have zero : clk.toNat % freq.toNat = 0 := by
      rw [← BitVec.toNat_umod, even]
      rfl
    rw [if_neg (not_not_intro even), BitVec.toNat_udiv, ← Nat.mul_le_mul_left_iff some_freq]
    rw [zero, Nat.add_zero] at split
    rw [split]
  · have some_rest : clk.toNat % freq.toNat ≠ 0 := by
      intro zero
      exact even (BitVec.eq_of_toNat_eq (by rw [BitVec.toNat_umod, zero]; rfl))
    have large : freq.toNat ≠ 1 := by
      intro one
      rw [one] at some_rest
      exact some_rest (Nat.mod_one _)
    have small : clk.toNat / freq.toNat + 1 < 2 ^ 32 := by
      have half : clk.toNat / freq.toNat ≤ clk.toNat / 2 := Nat.div_le_div_left (by omega) (by decide)
      omega
    have value : (clk / freq + 1).toNat = clk.toNat / freq.toNat + 1 := by
      rw [BitVec.toNat_add, BitVec.toNat_udiv]
      exact Nat.mod_eq_of_lt small
    rw [if_pos even, value, Nat.succ_le_iff, ← Nat.mul_lt_mul_left some_freq]
    constructor
    · intro below
      have next : freq.toNat * (clk.toNat / freq.toNat + 1) ≤ freq.toNat * divider :=
        Nat.mul_le_mul_left _ ((Nat.mul_lt_mul_left some_freq).mp below)
      rw [Nat.mul_add] at next
      omega
    · intro within
      omega

theorem freqValue_cases (quot : BitVec 32) :
    freqValue quot = none ∧ 256 < quot.toNat ∨
      ∃ number < 8, freqValue quot = some (SPI_CR1_BR (BitVec.ofNat 32 number)) ∧
        quot.toNat ≤ 2 ^ (number + 1) ∧ ∀ lower < number, 2 ^ (lower + 1) < quot.toNat := by
  have rung (number : ℕ) (small : number < 8) (below : quot.toNat ≤ 2 ^ (number + 1))
      (above : number = 0 ∨ 2 ^ number < quot.toNat) :
      ∃ other < 8, some (SPI_CR1_BR (BitVec.ofNat 32 number)) = some (SPI_CR1_BR (BitVec.ofNat 32 other)) ∧
        quot.toNat ≤ 2 ^ (other + 1) ∧ ∀ lower < other, 2 ^ (lower + 1) < quot.toNat := by
    refine ⟨number, small, rfl, below, fun lower less => ?_⟩
    have power : 2 ^ (lower + 1) ≤ 2 ^ number := Nat.pow_le_pow_right (by decide) less
    omega
  unfold freqValue
  split_ifs
  · exact .inr (rung 0 (by decide) (by bv_omega) (.inl rfl))
  · exact .inr (rung 1 (by decide) (by bv_omega) (by bv_omega))
  · exact .inr (rung 2 (by decide) (by bv_omega) (by bv_omega))
  · exact .inr (rung 3 (by decide) (by bv_omega) (by bv_omega))
  · exact .inr (rung 4 (by decide) (by bv_omega) (by bv_omega))
  · exact .inr (rung 5 (by decide) (by bv_omega) (by bv_omega))
  · exact .inr (rung 6 (by decide) (by bv_omega) (by bv_omega))
  · exact .inr (rung 7 (by decide) (by bv_omega) (by bv_omega))
  · exact .inl ⟨rfl, by bv_omega⟩

theorem freq_mask_inside : ∀ bit < 32, SPI_FREQ_MASK.getLsbD bit = true → bit ∈ Field.baudRate.bits := by decide

theorem freqValue_inside (quot : BitVec 32) :
    ∀ value ∈ freqValue quot, ∀ bit < 32, value.getLsbD bit = true → bit ∈ Field.baudRate.bits := by
  have inside : ∀ number < 8, ∀ bit < 32, (SPI_CR1_BR (BitVec.ofNat 32 number)).getLsbD bit = true →
      bit ∈ Field.baudRate.bits := by decide
  intro value there
  rcases freqValue_cases quot with ⟨none_found, -⟩ | ⟨number, small, found, -⟩
  · cases none_found.symm.trans there
  · obtain rfl := some.inj (found.symm.trans there)
    exact inside number small

theorem baudRate_replaced : ∀ number < 8,
    (cr1 &&& ~~~SPI_FREQ_MASK ||| SPI_CR1_BR (BitVec.ofNat 32 number)).extractLsb' 3 3 =
      cr1.extractLsb' 3 3 &&& 4 ||| BitVec.ofNat 3 number := by
  have constants : ∀ number < 8, ∀ bit < 3, SPI_FREQ_MASK.getLsbD (3 + bit) = !(4 : BitVec 3).getLsbD bit ∧
      (SPI_CR1_BR (BitVec.ofNat 32 number)).getLsbD (3 + bit) = (BitVec.ofNat 3 number).getLsbD bit := by decide
  intro number small
  apply BitVec.eq_of_getLsbD_eq
  intro bit inside
  obtain ⟨mask, value⟩ := constants number small bit inside
  rw [getLsbD_baudRate bit inside, getLsbD_replaced, mask, value, BitVec.getLsbD_or, BitVec.getLsbD_and,
    getLsbD_baudRate bit inside, Bool.not_not]

theorem baudRate_shows_iff (positive : 0 < freq) {number : ℕ} (small : number < 8)
    (below : (quot clk freq).toNat ≤ 2 ^ (number + 1))
    (above : ∀ lower < number, 2 ^ (lower + 1) < (quot clk freq).toNat) :
    Field.baudRate.Shows clk (cr1 &&& ~~~SPI_FREQ_MASK ||| SPI_CR1_BR (BitVec.ofNat 32 number)) freq ↔
      cr1.getLsbD 5 = false ∨ 16 * freq.toNat < clk.toNat := by
  have least : IsLeast {number | number < 8 ∧ clk.toNat ≤ freq.toNat * 2 ^ (number + 1)} number := by
    refine ⟨⟨small, (quot_le_iff positive _).mp below⟩, fun other there => ?_⟩
    by_contra less
    have higher := above other (Nat.lt_of_not_le less)
    have lower := (quot_le_iff positive _).mpr there.2
    omega
  have kept : ∀ number < 8, ∀ field : BitVec 3,
      (field &&& 4 ||| BitVec.ofNat 3 number).toNat = number ↔ field.getLsbD 2 = false ∨ 4 ≤ number := by decide
  have high : 4 ≤ number ↔ 16 * freq.toNat < clk.toNat := by
    have rung : (quot clk freq).toNat ≤ 16 ↔ clk.toNat ≤ freq.toNat * 16 := quot_le_iff positive 16
    constructor
    · intro large
      have higher := above 3 large
      omega
    · intro far
      by_contra low
      have power : 2 ^ (number + 1) ≤ 2 ^ 4 := Nat.pow_le_pow_right (by decide) (by omega)
      omega
  have unique : Field.baudRate.Shows clk (cr1 &&& ~~~SPI_FREQ_MASK ||| SPI_CR1_BR (BitVec.ofNat 32 number)) freq ↔
      ((cr1 &&& ~~~SPI_FREQ_MASK ||| SPI_CR1_BR (BitVec.ofNat 32 number)).extractLsb' 3 3).toNat = number := by
    constructor
    · exact fun shows => shows.unique least
    · intro same
      rw [← same] at least
      exact least
  rw [unique, baudRate_replaced number small, kept number small, getLsbD_baudRate 2 (by decide), high]

end Setters

section Calls
variable {spi : SpiMaster} {s next : Bus} {call : Call}

section
variable (right : Right spi s) (same : s.spi.clk = spi.clk)
include right same

theorem Right.setField_iff (call : Call) {mask : BitVec 32} {found : Option (BitVec 32)} {start : SpiMaster}
    (unwritten : start.cr1 = s.spi.cr1) (masked : ∀ bit < 32, mask.getLsbD bit = true → bit ∈ call.field.bits)
    (valued : ∀ value ∈ found, ∀ bit < 32, value.getLsbD bit = true → bit ∈ call.field.bits) :
    Right spi ⟨(start.setField mask found).2, s.record ++
        [⟨call, (start.setField mask found).1, s.spi.cr1, (start.setField mask found).2.cr1⟩]⟩ ↔
      ∀ value ∈ found, call.field.Shows s.spi.clk (s.spi.cr1 &&& ~~~mask ||| value) call.setting := by
  cases found with
  | none => exact iff_of_true (right.refuse (show - EINVAL ≠ 0 by decide) unwritten unwritten) nofun
  | some value =>
    have outside : ∀ bit ∉ call.field.bits, (s.spi.cr1 &&& ~~~mask ||| value).getLsbD bit = s.spi.cr1.getLsbD bit :=
      replaced_outside masked (valued value rfl)
    have written : Right spi ⟨{ start with cr1 := s.spi.cr1 &&& ~~~mask ||| value },
        s.record ++ [⟨call, 0, s.spi.cr1, s.spi.cr1 &&& ~~~mask ||| value⟩]⟩ ↔
          call.field.Shows spi.clk (s.spi.cr1 &&& ~~~mask ||| value) call.setting :=
      right.write_iff rfl outside
    simp only [SpiMaster.setField, unwritten]
    rw [written, same]
    simp

theorem Right.setMode_iff (mode : BitVec 32) (stepped : step s (.setMode mode) = some next) :
    Right spi next ↔ Lasting s (.setMode mode) := by
  obtain rfl := some.inj stepped
  refine (right.setField_iff same (.setMode mode) rfl mode_mask_inside (modeValue_inside mode)).trans ?_
  rcases modeValue_cases mode with ⟨none_found, large⟩ | ⟨value, found, listed⟩
  · rw [none_found]
    exact iff_of_true nofun fun small => absurd small large
  · have small : mode < 4 := by
      simp only [mem_cons, Prod.mk.injEq, not_mem_nil, or_false] at listed
      rcases listed with ⟨rfl, -⟩ | ⟨rfl, -⟩ | ⟨rfl, -⟩ | ⟨rfl, -⟩ <;> decide
    simp only [found, mem_some_iff, forall_eq', Call.field, Call.setting, mode_shows_iff listed, Lasting, small,
      forall_const]

theorem Right.setBpw (bpw : BitVec 32) (stepped : step s (.setBpw bpw) = some next) : Right spi next := by
  obtain rfl := some.inj stepped
  have start : (if (bpwValue bpw).isSome then { s.spi with bpw := bpw } else s.spi).cr1 = s.spi.cr1 := by
    split_ifs <;> rfl
  refine (right.setField_iff same (.setBpw bpw) start bpw_mask_inside (bpwValue_inside bpw)).mpr ?_
  intro value there
  rcases bpwValue_cases bpw with none_found | ⟨_, found, listed⟩
  · cases none_found.symm.trans there
  · obtain rfl := some.inj (found.symm.trans there)
    exact frame_shows listed

theorem Right.setMaxFreq_iff (freq : BitVec 32) (positive : 0 < freq)
    (stepped : step s (.setMaxFreq freq positive) = some next) :
    Right spi next ↔ Lasting s (.setMaxFreq freq positive) := by
  obtain rfl := some.inj stepped
  have within : (quot s.spi.clk freq).toNat ≤ 256 ↔ s.spi.clk.toNat ≤ 256 * freq.toNat := by
    rw [quot_le_iff positive, Nat.mul_comm]
  refine (right.setField_iff same (.setMaxFreq freq positive) rfl freq_mask_inside (freqValue_inside _)).trans ?_
  rcases freqValue_cases (quot s.spi.clk freq) with ⟨none_found, large⟩ | ⟨number, small, found, below, above⟩
  · rw [none_found]
    refine iff_of_true nofun fun fits => ?_
    exact absurd (within.mpr fits) (Nat.not_le_of_lt large)
  · have fits : s.spi.clk.toNat ≤ 256 * freq.toNat := by
      apply within.mp
      exact below.trans (Nat.pow_le_pow_right (by decide) (show number + 1 ≤ 8 from small))
    simp only [found, mem_some_iff, forall_eq', Call.field, Call.setting,
      baudRate_shows_iff positive small below above, Lasting, fits, forall_const]

end

theorem step_clk (stepped : step s call = some next) : next.spi.clk = s.spi.clk := by
  obtain rfl := some.inj stepped
  cases call with
  | setMode mode =>
    simp only [Call.perform, stm32SpiSetMode]
    cases modeValue mode <;> rfl
  | setBpw bpw =>
    simp only [Call.perform, stm32SpiSetBpw]
    cases bpwValue bpw <;> rfl
  | setMaxFreq freq positive =>
    simp only [Call.perform, stm32SpiSetMaxFreq]
    cases freqValue (quot s.spi.clk freq) <;> rfl

/-- A setting is kept exactly when it lasts. -/
theorem Right.step_iff (right : Right spi s) (same : s.spi.clk = spi.clk) (stepped : step s call = some next) :
    Right spi next ↔ Lasting s call := by
  cases call with
  | setMode mode => exact right.setMode_iff same mode stepped
  | setBpw bpw => exact iff_of_true (right.setBpw same bpw stepped) trivial
  | setMaxFreq freq positive => exact right.setMaxFreq_iff same freq positive stepped

theorem right_start (spi : SpiMaster) : Right spi (.start spi) := ⟨nofun, nofun, fun _ _ => rfl⟩

end Calls

/-- The register is right after each of some calls exactly when each of them is lasting where it is made. -/
theorem spi_settings_last_iff (spi : SpiMaster) (calls : List Call) :
    (∀ first, first <+: calls → ∀ s, run step (.start spi) first = some s → Right spi s) ↔
      Guarded step Lasting (.start spi) calls := by
  obtain ⟨final, ran, -⟩ := run_total_of_guarded step (fun _ _ => True) (fun _ => True)
    (fun s call _ _ => ⟨_, rfl, trivial⟩) (.start spi) calls trivial (.of_forall fun _ _ _ => trivial)
  refine reached_iff_guarded step (fun _ _ => True) Lasting (fun s => s.spi.clk = spi.clk) (Right spi) ?_
    (.start spi) final calls rfl (right_start spi) (.of_forall fun _ _ _ => trivial) ran
  intro s call next same _ stepped
  exact ⟨(step_clk stepped).trans same, fun right => right.step_iff same stepped⟩

/-- Mode 1 sets the polarity and not the phase, as mode 2 does, and a fast clock after a slow one stays slow. -/
theorem spi_settings_lost : ¬Right ⟨84000000, 8, 0⟩ ⟨⟨84000000, 8, 2⟩, [⟨.setMode 1, 0, 0, 2⟩]⟩ ∧
    run step (.start ⟨84000000, 8, 0⟩) [.setMode 1] = some ⟨⟨84000000, 8, 2⟩, [⟨.setMode 1, 0, 0, 2⟩]⟩ ∧
    (stm32SpiSetMode ⟨84000000, 8, 0⟩ 1).2 = (stm32SpiSetMode ⟨84000000, 8, 0⟩ 2).2 := by
  refine ⟨fun right => ?_, by decide, by decide⟩
  have shows := right.shown .mode 1 rfl
  exact absurd shows.2.1 (by decide)

end Phabos.Spi
