import Phabos.Construction.Svc.TsbSwitchEs2
import Phabos.Library.Search

namespace Phabos.Es2
open Library Switch List

def Nul (byte : Byte) : Prop := byte = hnul ∨ byte = lnul

instance (byte : Byte) : Decidable (Nul byte) := inferInstanceAs (Decidable (_ ∨ _))

/-- The fields of a status that accepts the data: no length error, no full FIFO, and something left of both -/
structure Accepts (status0 status1 status2 status3 : Byte) : Prop where
  lenErr : status3 &&& wstatus3Lenerr = 0
  txEntFull : status3 &&& wstatus3Txentfifofull = 0
  txDataFull : status3 &&& wstatus3Txdatafifofull = 0
  txEntRemain : be16 (status0 &&& wstatus0Txentfiforemain) (status1 &&& wstatus1Txentfiforemain) ≠ 0
  txDataRemain : status2 &&& wstatus2Txdatafiforemain ≠ 0

/-- A block of NUL bytes and, behind them, a whole report that accepts the data -/
structure Reports (block : RxBytes) (size i : ℕ) : Prop where
  nuls : ∀ j < i, Nul (block j)
  whole : i + 9 ≤ size
  start : block i = strw
  len : be16 (block (i + 2)) (block (i + 3)) = 4
  stop : block (i + 8) = endp
  accepts : Accepts (block (i + 4)) (block (i + 5)) (block (i + 6)) (block (i + 7))

/-- What the check of a write status promises: it reads no byte outside the block, and succeeds on the blocks with a
report that accepts the data. -/
structure Sound (block : RxBytes) (size : ℕ) : Prop where
  inside : ∀ address ∈ (es2TransferCheckWriteStatus block size).2, address < size
  accepts : (es2TransferCheckWriteStatus block size).1 = 0 ↔ ∃ i, Reports block size i

/-- The first byte that is not NUL is an STRW so late that the report does not fit into the block, unless the length of
the report does, and is a wrong one. -/
structure CutOff (block : RxBytes) (size i : ℕ) : Prop where
  first : First (fun j => ¬Nul (block j)) i
  inside : i < size
  start : block i = strw
  late : size < i + 9
  trusted : i + 4 ≤ size → be16 (block (i + 2)) (block (i + 3)) = 4

section Status
variable {block : RxBytes} {size i : ℕ}

theorem parseStatus_zero {status0 status1 status2 status3 : Byte} :
    parseStatus status0 status1 status2 status3 = 0 ↔ Accepts status0 status1 status2 status3 := by
  have eprotoNe : - eproto ≠ 0 := by decide
  have eioNe : - eio ≠ 0 := by decide
  have eagainNe : - eagain ≠ 0 := by decide
  unfold parseStatus
  dsimp only
  constructor
  · intro zero
    split at zero
    · exact absurd zero eprotoNe
    rename_i entry
    split at zero
    · exact absurd zero eprotoNe
    rename_i data
    split at zero
    · exact absurd zero eioNe
    rename_i lenErr
    split at zero
    · exact absurd zero eagainNe
    rename_i entryFull
    split at zero
    · exact absurd zero eagainNe
    rename_i dataFull
    simp only [decide_eq_true_eq, not_not, ne_eq] at lenErr entryFull dataFull
    simp only [entryFull, ne_eq, not_true_eq_false, decide_false, Bool.not_false, and_true] at entry
    simp only [dataFull, ne_eq, not_true_eq_false, decide_false, Bool.not_false, and_true] at data
    exact ⟨lenErr, entryFull, dataFull, entry, data⟩
  · intro accepts
    rw [if_neg fun both => accepts.txEntRemain both.1, if_neg fun both => accepts.txDataRemain both.1]
    simp [accepts.lenErr, accepts.txEntFull, accepts.txDataFull]

theorem Nul.ne_strw {byte : Byte} (nul : Nul byte) : byte ≠ strw := by
  rintro rfl
  exact absurd nul (by decide)

/-- What a search returns that found a byte which is not NUL -/
def atByte (block : RxBytes) (i : ℕ) : Int × List ℕ := if block i = strw then blockFound block i else (- eproto, [])

theorem findStatus_nul (own : Nul (block i)) (size : ℕ) : findStatus block (size + 1) i =
    ((findStatus block size (i + 1)).1, i :: (findStatus block size (i + 1)).2) := by
  have nul : block i = hnul ∨ block i = lnul := own
  rw [findStatus, if_neg own.ne_strw, if_pos nul]

theorem findStatus_other (other : ¬Nul (block i)) (size : ℕ) :
    findStatus block (size + 1) i = ((atByte block i).1, i :: (atByte block i).2) := by
  have regular : ¬(block i = hnul ∨ block i = lnul) := other
  rw [findStatus, if_neg regular]
  rfl

theorem check_nuls (nuls : ∀ j < size, ¬¬Nul (block j)) :
    es2TransferCheckWriteStatus block size = (- eproto, range' 0 size) := by
  have search : findStatus block (0 + size) 0 = (- eproto, range' 0 (0 + size)) := by
    apply scan (motive := fun remaining j => findStatus block remaining j = (- eproto, range' j remaining)) nuls
    · intro remaining j nul rest
      rw [findStatus_nul (not_not.mp nul), rest]
      rfl
    · rfl
  rwa [Nat.zero_add] at search

theorem check_first (first : First (fun j => ¬Nul (block j)) i) (inside : i < size) :
    es2TransferCheckWriteStatus block size = ((atByte block i).1, range' 0 (i + 1) ++ (atByte block i).2) := by
  have search : ∀ k, 0 + k = i → findStatus block size 0 =
      ((atByte block i).1, range' 0 (k + 1) ++ (atByte block i).2) := by
    apply first.scan (motive := fun remaining j => ∀ k, j + k = i → findStatus block remaining j =
      ((atByte block i).1, range' j (k + 1) ++ (atByte block i).2)) inside
    · intro remaining j nul rest k place
      cases k with
      | zero =>
        rw [Nat.add_zero] at place
        exact absurd (place ▸ first.here) nul
      | succ k =>
        rw [findStatus_nul (not_not.mp nul), rest k (by omega)]
        rfl
    · intro remaining k place
      obtain rfl : k = 0 := by omega
      exact findStatus_other first.here remaining
  exact search i (Nat.zero_add i)

theorem blockFound_zero : (blockFound block i).1 = 0 ↔ be16 (block (i + 2)) (block (i + 3)) = 4 ∧
    block (i + 8) = endp ∧ Accepts (block (i + 4)) (block (i + 5)) (block (i + 6)) (block (i + 7)) := by
  have eprotoNe : - eproto ≠ 0 := by decide
  unfold blockFound
  split
  · rename_i wrong
    exact iff_of_false eprotoNe fun all => wrong all.1
  · rename_i len
    split
    · rename_i wrong
      exact iff_of_false eprotoNe fun all => wrong all.2.1
    · rename_i stop
      rw [parseStatus_zero]
      exact ⟨fun accepts => ⟨not_not.mp len, not_not.mp stop, accepts⟩, fun all => all.2.2⟩

theorem blockFound_inside : (∀ address ∈ (blockFound block i).2, address < size) ↔
    i + 4 ≤ size ∧ (be16 (block (i + 2)) (block (i + 3)) = 4 → i + 9 ≤ size) := by
  unfold blockFound
  split
  · rename_i wrong
    have both : (∀ address ∈ [i + 2, i + 3], address < size) ↔ i + 4 ≤ size := by
      simp only [forall_mem_cons, not_mem_nil, false_imp_iff, implies_true, and_true]
      omega
    exact both.trans (and_iff_left fun len => absurd len wrong).symm
  · rename_i len
    split <;>
    · simp [not_not.mp len]
      omega

theorem Reports.first {k : ℕ} (reports : Reports block size k) : First (fun j => ¬Nul (block j)) k :=
  ⟨fun nul => nul.ne_strw reports.start, fun j less => not_not.mpr (reports.nuls j less)⟩

/-- The check of a block with a status is sound exactly when the status is not cut off. -/
theorem sound_iff_of_first (first : First (fun j => ¬Nul (block j)) i) (inside : i < size) :
    Sound block size ↔ ¬CutOff block size i := by
  have check := check_first first inside
  have looked : (∀ address ∈ (es2TransferCheckWriteStatus block size).2, address < size) ↔
      ∀ address ∈ (atByte block i).2, address < size := by
    rw [check, forall_mem_append]
    refine and_iff_right fun address there => ?_
    obtain ⟨-, below⟩ := mem_range'_1.mp there
    omega
  have zero : (es2TransferCheckWriteStatus block size).1 = (atByte block i).1 := by rw [check]
  have only {k : ℕ} (reports : Reports block size k) : Reports block size i := reports.first.unique first ▸ reports
  by_cases start : block i = strw
  · have found : atByte block i = blockFound block i := if_pos start
    rw [found] at looked zero
    constructor
    · intro sound cut
      obtain ⟨four, nine⟩ := blockFound_inside.mp (looked.mp sound.inside)
      have late := cut.late
      have fits := nine (cut.trusted four)
      omega
    · intro uncut
      have fits : i + 9 ≤ size ∨ i + 4 ≤ size ∧ be16 (block (i + 2)) (block (i + 3)) ≠ 4 := by
        by_contra neither
        obtain ⟨late, trusted⟩ := not_or.mp neither
        exact uncut ⟨first, inside, start, Nat.lt_of_not_le late,
          fun four => not_not.mp fun wrong => trusted ⟨four, wrong⟩⟩
      refine ⟨looked.mpr (blockFound_inside.mpr ?_), ?_⟩
      · rcases fits with whole | ⟨four, wrong⟩
        · exact ⟨by omega, fun _ => whole⟩
        · exact ⟨four, fun len => absurd len wrong⟩
      · rw [zero, blockFound_zero]
        constructor
        · rintro ⟨len, stop, accepts⟩
          have whole := fits.resolve_right fun both => both.2 len
          exact ⟨i, fun j less => not_not.mp (first.before j less), whole, start, len, stop, accepts⟩
        · rintro ⟨k, reports⟩
          have own := only reports
          exact ⟨own.len, own.stop, own.accepts⟩
  · have found : atByte block i = (- eproto, []) := if_neg start
    rw [found] at looked zero
    refine iff_of_true ⟨looked.mpr nofun, iff_of_false ?_ ?_⟩ fun cut => start cut.start
    · rw [zero]
      decide
    · rintro ⟨k, reports⟩
      exact start (only reports).start

end Status

/-- The check of a write status is sound on exactly the blocks whose report is not cut off. -/
theorem write_status (block : RxBytes) (size : ℕ) : Sound block size ↔ ∀ i, ¬CutOff block size i := by
  rcases first_or_none (fun j => ¬Nul (block j)) size with ⟨i, inside, first⟩ | nuls
  · rw [sound_iff_of_first first inside]
    exact ⟨fun uncut k cut => uncut (cut.first.unique first ▸ cut), fun uncut => uncut i⟩
  · have check := check_nuls nuls
    refine iff_of_true ⟨?_, iff_of_false ?_ ?_⟩ fun i cut => nuls i cut.inside cut.first.here
    · rw [check]
      intro address there
      obtain ⟨-, below⟩ := mem_range'_1.mp there
      omega
    · rw [check]
      exact (by decide : - eproto ≠ 0)
    · rintro ⟨i, reports⟩
      have whole := reports.whole
      exact nuls i (by omega) reports.first.here

/-- A report that accepts the data begins so late that the block ends before its ENDP, which is read behind the block. -/
def cutStatus : RxBytes := fun address =>
  if address < 19 then lnul else [strw, 0x03, 0x00, 0x04, 0x03, 0xff, 0x7f, 0x00, endp].getD (address - 19) lnul

theorem write_status_cut : (es2TransferCheckWriteStatus cutStatus switchWriteStatusNnull).1 = 0 ∧
    switchWriteStatusNnull ∈ (es2TransferCheckWriteStatus cutStatus switchWriteStatusNnull).2 ∧
    ¬Sound cutStatus switchWriteStatusNnull := by
  have looked : switchWriteStatusNnull ∈ (es2TransferCheckWriteStatus cutStatus switchWriteStatusNnull).2 := by
    decide +kernel
  exact ⟨by decide +kernel, looked, fun sound => Nat.lt_irrefl _ (sound.inside _ looked)⟩

end Phabos.Es2
