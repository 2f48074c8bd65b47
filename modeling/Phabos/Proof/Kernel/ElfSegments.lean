import Phabos.Construction.Kernel.ElfLoader
import Phabos.Proof.Mm.Allocation

namespace Phabos.Elf
open Library List

/-- The bytes of a file at an offset, as many as there are up to a number -/
def File.at (f : File) (pos size : ℕ) : List UInt8 := (f.content.drop pos).take size

theorem EINVAL_ne_zero : -EINVAL ≠ 0 := by decide

theorem ENOMEM_ne_zero : -ENOMEM ≠ 0 := by decide

/-- A file has as many bytes at an offset as a read wants. A read of nothing fails. -/
def File.Has (f : File) (pos size : ℕ) : Prop := size ≠ 0 ∧ (f.at pos size).length = size

instance (f : File) (pos size : ℕ) : Decidable (f.Has pos size) := inferInstanceAs (Decidable (_ ∧ _))

section Reads
variable {f : File} {pos size : ℕ}

theorem length_at_le (f : File) (pos size : ℕ) : (f.at pos size).length ≤ size := List.length_take_le _ _

theorem length_at (f : File) (pos size : ℕ) : (f.at pos size).length = min size (f.content.length - pos) := by
  unfold File.at
  rw [List.length_take, length_drop]

theorem at_append (f : File) {pos first size : ℕ} (fits : first ≤ size) (full : (f.at pos first).length = first) :
    f.at pos first ++ f.at (pos + first) (size - first) = f.at pos size := by
  unfold File.at at full ⊢
  rw [← List.drop_drop, show size = first + (size - first) by omega, Nat.add_sub_cancel_left, List.take_add]

/-- All reads of a loop together give the bytes of the file. They fail when there are too few, and when none are
wanted. -/
theorem elfRead_eq (f : File) (pos size : ℕ) : elfRead f pos size =
    (if f.Has pos size then 0 else -EINVAL, f.at pos size, pos + (f.at pos size).length) := by
  induction size using Nat.strong_induction_on generalizing pos with
  | h size ih =>
    have short := f.short pos size
    have length : (f.sysRead pos size).length = min (f.chunk pos size) (f.content.length - pos) := length_at f pos _
    have read : f.sysRead pos size = f.at pos (f.sysRead pos size).length := by
      unfold File.at File.sysRead at length ⊢
      rw [List.take_eq_take_iff, length, length_drop]
      omega
    rw [elfRead]
    dsimp only
    by_cases empty : f.sysRead pos size = []
    · -- nothing is wanted, or nothing is left
      have none : f.at pos size = [] := by
        rw [empty, length_nil] at length
        rw [← List.length_eq_zero_iff, length_at]
        rcases Nat.eq_zero_or_pos size with zero | positive
        · omega
        · have positive := f.some pos size positive
          omega
      have fails : ¬ f.Has pos size := fun full => full.1 (by rw [← full.2, none, length_nil])
      rw [if_pos empty, if_neg fails, none]
      rfl
    · have positive := List.length_pos_iff.mpr empty
      rw [if_neg empty]
      generalize (f.sysRead pos size).length = n at length read positive ⊢
      have full : (f.at pos n).length = n := by
        rw [length_at]
        omega
      rw [read]
      by_cases done : n = size
      · rw [if_pos done, ← done, if_pos ⟨Nat.ne_of_gt positive, full⟩, full]
      · have whole := at_append f (show n ≤ size by omega) full
        have lengths := congrArg List.length whole
        rw [length_append, full] at lengths
        rw [if_neg done, ih (size - n) (by omega), whole, ← lengths, Nat.add_assoc]
        refine Prod.ext (ite_congr (propext ?_) (fun _ => rfl) fun _ => rfl) rfl
        unfold File.Has
        omega

end Reads

/-- The `Elf32_Phdr` buffer after a read -/
def entry (bytes old : List UInt8) : List UInt8 := (bytes ++ old.drop bytes.length).take sizeofPhdr

/-- No byte is written behind the end of a buffer. -/
def Inside (s : Loader) : Prop := ∀ access ∈ s.accesses, access.got ≤ access.room

/-- All bytes that were wanted were written. -/
def Complete (s : Loader) : Prop := ∀ access ∈ s.accesses, access.got = access.wanted

/-- No write leaves its buffer, and an access that would is an error. -/
def Contained (result : Int × Loader) : Prop :=
  Inside result.2 ∧ ((∃ access ∈ result.2.accesses, access.room < access.wanted) → result.1 ≠ 0)

/-- The `Elf32_Phdr` buffer behind the first loop, if it comes to its end -/
def scanned (f : File) (phentsize : ℕ) : ℕ → ℕ → List UInt8 → Option (List UInt8)
  | 0, _, old => some old
  | left + 1, pos, old =>
    if f.Has pos phentsize ∧ pType (entry (f.at pos phentsize) old) ≠ PT_INTERP then
      scanned f phentsize left (pos + phentsize) (entry (f.at pos phentsize) old)
    else none

/-- The headers whose segments get memory in the second loop. Behind a segment the next header is read where the file
of the segment ends. -/
def loaded (f : File) (zalloc : ℕ → Bool) (phentsize : ℕ) : ℕ → ℕ → List UInt8 → ℕ → List (List UInt8)
  | 0, _, _, _ => []
  | left + 1, pos, old, segments =>
    let phdr := entry (f.at pos phentsize) old
    if ¬ f.Has pos phentsize then []
    else if pType phdr ≠ PT_LOAD then loaded f zalloc phentsize left (pos + phentsize) phdr segments
    else if pMemsz phdr = 0 ∨ zalloc segments = false then []
    else
      phdr ::
        if pOffset phdr < 2 ^ 31 ∧ f.Has (pOffset phdr) (pFilesz phdr) then
          loaded f zalloc phentsize left (pOffset phdr + pFilesz phdr) phdr (segments + 1)
        else []

/-- The write of `zalloc` -/
def cleared (phdr : List UInt8) : Access := ⟨kmallocRoom (pMemsz phdr), pMemsz phdr, pMemsz phdr⟩

/-- The write of the bytes of the file -/
def filled (f : File) (phdr : List UInt8) : Access :=
  ⟨kmallocRoom (pMemsz phdr), pFilesz phdr, (f.at (pOffset phdr) (pFilesz phdr)).length⟩

/-- The bytes of the file, and zeros behind them -/
def image (f : File) (phdr : List UInt8) : List UInt8 :=
  let bytes := f.at (pOffset phdr) (pFilesz phdr)
  bytes.take (pMemsz phdr) ++ List.replicate (pMemsz phdr - bytes.length) 0

/-- The memory of a segment is as large as it was asked for, and has room for the bytes of the file. -/
def FitsSegment (f : File) (phdr : List UInt8) : Prop :=
  pMemsz phdr + Mm.bufferSize < 2 ^ 32 ∧
    (pOffset phdr < 2 ^ 31 → (f.at (pOffset phdr) (pFilesz phdr)).length ≤ pMemsz phdr)

/-- The loader comes to the program headers. -/
def Opened (f : File) (env : Environment) : Prop :=
  env.hdr = true ∧ f.Has env.start sizeofEhdr ∧ verifyFile (f.at env.start sizeofEhdr) = 0 ∧
    ePhnum (f.at env.start sizeofEhdr) ≠ 0 ∧ env.phdr = true ∧ ePhoff (f.at env.start sizeofEhdr) < 2 ^ 31

/-- A program header, or what the file has of it, fits in its buffer, and the segments that the loader comes to fit in
their memory. -/
def Fits (f : File) (env : Environment) : Prop :=
  let hdr := f.at env.start sizeofEhdr
  Opened f env → (f.at (ePhoff hdr) (ePhentsize hdr)).length ≤ sizeofPhdr ∧
    ∀ last, scanned f (ePhentsize hdr) (ePhnum hdr) (ePhoff hdr) env.garbage = some last →
      ∀ phdr ∈ loaded f env.zalloc (ePhentsize hdr) (ePhnum hdr) (ePhoff hdr) last 0, FitsSegment f phdr

section Loops
variable {f : File} {env : Environment} {s : Loader} {phentsize : ℕ}

/-- The loader behind a program header -/
def header (f : File) (phentsize : ℕ) (s : Loader) : Loader :=
  { s with
    pos := s.pos + (f.at s.pos phentsize).length
    phdr := entry (f.at s.pos phentsize) s.phdr
    accesses := s.accesses ++ [⟨sizeofPhdr, phentsize, (f.at s.pos phentsize).length⟩] }

/-- The loader behind a program header in the second loop -/
def visited (f : File) (phentsize : ℕ) (s : Loader) : Loader :=
  { header f phentsize s with headers := s.headers ++ [s.pos] }

theorem readPhdr_eq (f : File) (phentsize : ℕ) (s : Loader) :
    readPhdr f phentsize s = (if f.Has s.pos phentsize then 0 else -EINVAL, header f phentsize s) := by
  unfold readPhdr
  rw [elfRead_eq]
  rfl

theorem findInterp_succ (f : File) (phentsize left : ℕ) (s : Loader) : findInterp f phentsize (left + 1) s =
    if ¬ f.Has s.pos phentsize then .error (-EINVAL, header f phentsize s)
    else if pType (header f phentsize s).phdr = PT_INTERP then .error (0, header f phentsize s)
    else findInterp f phentsize left (header f phentsize s) := by
  rw [findInterp, readPhdr_eq]
  dsimp only
  by_cases full : f.Has s.pos phentsize
  · rw [if_pos full, if_neg (not_not_intro rfl), if_neg (not_not_intro full)]
  · rw [if_neg full, if_pos EINVAL_ne_zero, if_pos full]

theorem loadSegments_succ (f : File) (env : Environment) (phentsize left : ℕ) (s : Loader) :
    loadSegments f env phentsize (left + 1) s =
      if ¬ f.Has s.pos phentsize then (-EINVAL, visited f phentsize s)
      else if pType (visited f phentsize s).phdr ≠ PT_LOAD then
        loadSegments f env phentsize left (visited f phentsize s)
      else if (elfLoadSegment f env (visited f phentsize s)).1 ≠ 0 then elfLoadSegment f env (visited f phentsize s)
      else loadSegments f env phentsize left (elfLoadSegment f env (visited f phentsize s)).2 := by
  rw [loadSegments, readPhdr_eq]
  dsimp only
  by_cases full : f.Has s.pos phentsize
  · rw [if_pos full, if_neg (not_not_intro rfl), if_neg (not_not_intro full)]
    rfl
  · rw [if_neg full, if_pos EINVAL_ne_zero, if_pos full]
    rfl

theorem inside_append {accesses : List Access} {access : Access} :
    (∀ one ∈ accesses ++ [access], one.got ≤ one.room) ↔
      (∀ one ∈ accesses, one.got ≤ one.room) ∧ access.got ≤ access.room := by
  rw [forall_mem_append, forall_mem_singleton]

theorem complete_append {accesses : List Access} {access : Access} (before : ∀ one ∈ accesses, one.got = one.wanted)
    (last : access.got = access.wanted) : ∀ one ∈ accesses ++ [access], one.got = one.wanted := by
  rw [forall_mem_append, forall_mem_singleton]
  exact ⟨before, last⟩

theorem word_lt (bytes : List UInt8) (offset : ℕ) : word bytes offset < 2 ^ 32 := by
  have byte (i : ℕ) : (bytes.getD i 0).toNat < 256 := UInt8.toNat_lt _
  have one := byte offset
  have two := byte (offset + 1)
  have three := byte (offset + 2)
  have four := byte (offset + 2 + 1)
  unfold word le16
  omega

theorem kmallocRoom_eq {size : ℕ} (small : size < 2 ^ 32) :
    kmallocRoom size = if size + Mm.bufferSize < 2 ^ 32 then size else 0 := by
  have value : (BitVec.ofNat 32 size).toNat = size := by
    rw [BitVec.toNat_ofNat, Nat.mod_eq_of_lt small]
  have order : (Mm.sizeToOrder (BitVec.ofNat 32 (size + Mm.bufferSize)).toNat).toNat =
      Mm.requestOrder (BitVec.ofNat 32 size) := by
    unfold Mm.requestOrder
    rw [BitVec.ofNat_add]
  unfold kmallocRoom
  rw [order]
  split
  · rename_i fits
    have room := Nat.le_pow_clog (by decide : 1 < 2) (size + Mm.bufferSize)
    rw [Mm.requestOrder_eq_clog (by rwa [value]), value]
    omega
  · rename_i wraps
    have beyond : 2 ^ 32 ≤ (BitVec.ofNat 32 size).toNat + Mm.bufferSize := by
      rw [value]
      omega
    have low := Mm.requestOrder_of_wrap beyond
    have bytes : 2 ^ Mm.requestOrder (BitVec.ofNat 32 size) ≤ 2 ^ 4 := Nat.pow_le_pow_right (by decide) low
    unfold Mm.bufferSize
    omega

/-- What a loop of the program headers leaves behind -/
def outcome : Except (Int × Loader) Loader → Int × Loader
  | .error exit => exit
  | .ok s => (0, s)

theorem findInterp_inside {left : ℕ} : Inside (outcome (findInterp f phentsize left s)).2 ↔
    Inside s ∧ (left ≠ 0 → (f.at s.pos phentsize).length ≤ sizeofPhdr) := by
  induction left generalizing s with
  | zero => exact ⟨fun inside => ⟨inside, fun none => absurd rfl none⟩, And.left⟩
  | succ left ih =>
    have first : Inside (header f phentsize s) ↔
        Inside s ∧ (left + 1 ≠ 0 → (f.at s.pos phentsize).length ≤ sizeofPhdr) := by
      rw [forall_prop_of_true (Nat.succ_ne_zero left)]
      exact inside_append
    rw [findInterp_succ]
    split
    · exact first
    · rename_i full
      split
      · exact first
      · -- every header is as long as this one
        rw [ih, first]
        refine and_iff_left_of_imp fun inside _ => ?_
        have fits := inside.2 (Nat.succ_ne_zero left)
        rw [(not_not.mp full).2] at fits
        exact Nat.le_trans (length_at_le ..) fits

theorem findInterp_complete {left : ℕ} (before : Complete s) :
    (outcome (findInterp f phentsize left s)).1 = 0 → Complete (outcome (findInterp f phentsize left s)).2 := by
  induction left generalizing s with
  | zero => exact fun _ => before
  | succ left ih =>
    rw [findInterp_succ]
    split
    · exact fun succeeds => absurd succeeds EINVAL_ne_zero
    · rename_i full
      have complete : Complete (header f phentsize s) := complete_append before (not_not.mp full).2
      split
      · exact fun _ => complete
      · exact ih complete

theorem findInterp_scanned {left : ℕ} {s' : Loader} (found : findInterp f phentsize left s = .ok s') :
    scanned f phentsize left s.pos s.phdr = some s'.phdr ∧ s'.headers = s.headers ∧ s'.segments = s.segments ∧
      (left ≠ 0 → f.Has s.pos phentsize) := by
  induction left generalizing s with
  | zero =>
    cases found
    exact ⟨rfl, rfl, rfl, fun none => absurd rfl none⟩
  | succ left ih =>
    rw [findInterp_succ] at found
    split at found
    · cases found
    · rename_i full
      split at found
      · cases found
      · rename_i other
        have full := not_not.mp full
        obtain ⟨last, headers, segments, -⟩ := ih found
        unfold scanned
        rw [if_pos ⟨full, other⟩, ← last, header, full.2]
        exact ⟨rfl, headers, segments, fun _ => full⟩

theorem findInterp_of_scanned {left : ℕ} {last : List UInt8}
    (found : scanned f phentsize left s.pos s.phdr = some last) : ∃ s', findInterp f phentsize left s = .ok s' := by
  induction left generalizing s with
  | zero => exact ⟨s, rfl⟩
  | succ left ih =>
    unfold scanned at found
    split at found
    · rename_i next
      have other : pType (header f phentsize s).phdr ≠ PT_INTERP := next.2
      rw [findInterp_succ, if_neg (not_not_intro next.1), if_neg other]
      refine ih ?_
      rw [header, next.1.2]
      exact found
    · cases found

theorem elfLoadSegment_none (memory : pMemsz s.phdr = 0 ∨ env.zalloc s.segments.length = false) :
    elfLoadSegment f env s = (-ENOMEM, s) := by
  unfold elfLoadSegment
  exact if_pos memory

section
variable (memory : ¬ (pMemsz s.phdr = 0 ∨ env.zalloc s.segments.length = false))
include memory

theorem elfLoadSegment_eq :
    elfLoadSegment f env s =
      if 2 ^ 31 ≤ pOffset s.phdr then
        ((pOffset s.phdr : Int) - 2 ^ 32, { s with accesses := s.accesses ++ [cleared s.phdr] })
      else if f.Has (pOffset s.phdr) (pFilesz s.phdr) then
        (0, { s with
          pos := pOffset s.phdr + pFilesz s.phdr
          accesses := s.accesses ++ [cleared s.phdr] ++ [filled f s.phdr]
          segments := s.segments ++ [image f s.phdr] })
      else (-EINVAL, { s with accesses := s.accesses ++ [cleared s.phdr] ++ [filled f s.phdr] }) := by
  unfold elfLoadSegment
  rw [if_neg memory]
  dsimp only
  rw [elfRead_eq]
  refine ite_congr rfl (fun _ => rfl) fun _ => ?_
  by_cases full : f.Has (pOffset s.phdr) (pFilesz s.phdr)
  · rw [if_pos full, if_pos full]
    dsimp only
    rw [if_neg (fun fails => fails rfl)]
    unfold filled image
    dsimp only
    rw [full.2]
    rfl
  · rw [if_neg full, if_neg full]
    rfl

theorem elfLoadSegment_next (low : pOffset s.phdr < 2 ^ 31) (full : f.Has (pOffset s.phdr) (pFilesz s.phdr)) :
    elfLoadSegment f env s =
      (0, { s with
        pos := pOffset s.phdr + pFilesz s.phdr
        accesses := s.accesses ++ [cleared s.phdr] ++ [filled f s.phdr]
        segments := s.segments ++ [image f s.phdr] }) := by
  rw [elfLoadSegment_eq memory, if_neg (Nat.not_le.mpr low), if_pos full]

theorem elfLoadSegment_fails (missing : ¬ (pOffset s.phdr < 2 ^ 31 ∧ f.Has (pOffset s.phdr) (pFilesz s.phdr))) :
    (elfLoadSegment f env s).1 ≠ 0 := by
  have small : pOffset s.phdr < 2 ^ 32 := word_lt s.phdr 4
  rw [elfLoadSegment_eq memory]
  split
  · dsimp only
    omega
  · rename_i low
    rw [if_neg (fun full => missing ⟨Nat.lt_of_not_le low, full⟩)]
    exact EINVAL_ne_zero

/-- A segment is inside its memory when the memory is as large as it was asked for, and has room for the bytes. -/
theorem elfLoadSegment_inside : Inside (elfLoadSegment f env s).2 ↔ Inside s ∧ FitsSegment f s.phdr := by
  have small : pMemsz s.phdr < 2 ^ 32 := word_lt s.phdr 20
  have room : (cleared s.phdr).got ≤ (cleared s.phdr).room ↔ pMemsz s.phdr + Mm.bufferSize < 2 ^ 32 := by
    change pMemsz s.phdr ≤ kmallocRoom (pMemsz s.phdr) ↔ _
    rw [kmallocRoom_eq small]
    split
    · rename_i fits
      exact iff_of_true (Nat.le_refl _) fits
    · rename_i wraps
      refine iff_of_false ?_ wraps
      omega
  have both : (∀ access ∈ s.accesses ++ [cleared s.phdr] ++ [filled f s.phdr], access.got ≤ access.room) ↔
      Inside s ∧ pMemsz s.phdr + Mm.bufferSize < 2 ^ 32 ∧
        (f.at (pOffset s.phdr) (pFilesz s.phdr)).length ≤ pMemsz s.phdr := by
    rw [inside_append, inside_append, room, and_assoc]
    refine and_congr_right fun _ => and_congr_right fun fits => ?_
    change _ ≤ kmallocRoom (pMemsz s.phdr) ↔ _
    rw [kmallocRoom_eq small, if_pos fits]
    rfl
  rw [elfLoadSegment_eq memory]
  unfold FitsSegment
  by_cases negative : 2 ^ 31 ≤ pOffset s.phdr
  · have low : ¬ pOffset s.phdr < 2 ^ 31 := Nat.not_lt.mpr negative
    rw [if_pos negative, and_iff_left fun low' => absurd low' low]
    exact inside_append.trans (and_congr_right fun _ => room)
  · rw [if_neg negative, forall_prop_of_true (Nat.lt_of_not_le negative)]
    split
    · exact both
    · exact both

end

theorem elfLoadSegment_complete (before : Complete s) :
    (elfLoadSegment f env s).1 = 0 → Complete (elfLoadSegment f env s).2 := by
  by_cases memory : pMemsz s.phdr = 0 ∨ env.zalloc s.segments.length = false
  · rw [elfLoadSegment_none memory]
    exact fun succeeds => absurd succeeds ENOMEM_ne_zero
  · rw [elfLoadSegment_eq memory]
    split
    · intro succeeds
      have low : pOffset s.phdr < 2 ^ 32 := word_lt s.phdr 4
      dsimp only at succeeds
      omega
    · split
      · rename_i full
        exact fun _ => complete_append (complete_append before rfl) full.2
      · exact fun succeeds => absurd succeeds EINVAL_ne_zero

theorem loadSegments_inside (short : phentsize ≤ sizeofPhdr) {left : ℕ} :
    Inside (loadSegments f env phentsize left s).2 ↔
      Inside s ∧ ∀ phdr ∈ loaded f env.zalloc phentsize left s.pos s.phdr s.segments.length, FitsSegment f phdr := by
  have none {p : List UInt8 → Prop} (a : Prop) : a ↔ a ∧ ∀ phdr ∈ ([] : List (List UInt8)), p phdr :=
    (and_iff_left fun _ absent => absurd absent not_mem_nil).symm
  induction left generalizing s with
  | zero => exact none _
  | succ left ih =>
    have first : Inside (visited f phentsize s) ↔ Inside s :=
      inside_append.trans (and_iff_left (Nat.le_trans (length_at_le ..) short))
    have phdr : entry (f.at s.pos phentsize) s.phdr = (visited f phentsize s).phdr := rfl
    have segments : s.segments.length = (visited f phentsize s).segments.length := rfl
    rw [loadSegments_succ, loaded, phdr, segments]
    split
    · rw [first]
      exact none _
    · rename_i full
      have full := not_not.mp full
      by_cases other : pType (visited f phentsize s).phdr ≠ PT_LOAD
      · have next := @ih (visited f phentsize s)
        have pos : s.pos + phentsize = (visited f phentsize s).pos := by rw [visited, header, full.2]
        rw [first] at next
        rw [if_pos other, if_pos other, pos]
        exact next
      · rw [if_neg other, if_neg other]
        by_cases memory : pMemsz (visited f phentsize s).phdr = 0 ∨ env.zalloc (visited f phentsize s).segments.length = false
        · rw [elfLoadSegment_none memory, if_pos ENOMEM_ne_zero, if_pos memory, first]
          exact none _
        · have both := elfLoadSegment_inside (f := f) memory
          rw [first] at both
          rw [if_neg memory, List.forall_mem_cons, ← and_assoc]
          split
          · rename_i failed
            rw [if_neg (fun there => failed (congrArg Prod.fst (elfLoadSegment_next memory there.1 there.2))), both]
            exact none _
          · rename_i succeeded
            have there := not_not.mp fun missing => succeeded (elfLoadSegment_fails (f := f) memory missing)
            have next := @ih (elfLoadSegment f env (visited f phentsize s)).2
            rw [both, elfLoadSegment_next memory there.1 there.2, length_append] at next
            rw [elfLoadSegment_next memory there.1 there.2, if_pos there]
            exact next

theorem elfLoadSegment_kept (f : File) (env : Environment) (s : Loader) :
    s.accesses ⊆ (elfLoadSegment f env s).2.accesses := by
  by_cases memory : pMemsz s.phdr = 0 ∨ env.zalloc s.segments.length = false
  · rw [elfLoadSegment_none memory]
    exact List.Subset.refl _
  · have kept : s.accesses ⊆ s.accesses ++ [cleared s.phdr] := subset_append_left ..
    rw [elfLoadSegment_eq memory]
    split
    · exact kept
    · split
      · exact List.Subset.trans kept (subset_append_left ..)
      · exact List.Subset.trans kept (subset_append_left ..)

theorem loadSegments_kept (f : File) (env : Environment) (phentsize left : ℕ) (s : Loader) :
    s.accesses ⊆ (loadSegments f env phentsize left s).2.accesses := by
  induction left generalizing s with
  | zero => exact List.Subset.refl _
  | succ left ih =>
    have kept : s.accesses ⊆ (visited f phentsize s).accesses := subset_append_left ..
    rw [loadSegments_succ]
    split
    · exact kept
    · split
      · exact List.Subset.trans kept (ih _)
      · have loaded := List.Subset.trans kept (elfLoadSegment_kept f env _)
        split
        · exact loaded
        · exact List.Subset.trans loaded (ih _)

theorem loadSegments_complete {left : ℕ} (before : Complete s) :
    (loadSegments f env phentsize left s).1 = 0 → Complete (loadSegments f env phentsize left s).2 := by
  induction left generalizing s with
  | zero => exact fun _ => before
  | succ left ih =>
    rw [loadSegments_succ]
    split
    · exact fun succeeds => absurd succeeds EINVAL_ne_zero
    · rename_i full
      have complete : Complete (visited f phentsize s) := complete_append before (not_not.mp full).2
      split
      · exact ih complete
      · split
        · exact elfLoadSegment_complete complete
        · rename_i succeeded
          exact ih (elfLoadSegment_complete complete (not_not.mp succeeded))

/-- The loops over the program headers stay in the file. -/
theorem loops_inside {left : ℕ} (some : left ≠ 0) (before : Inside s) :
    Inside (match findInterp f phentsize left s with
      | .error exit => exit
      | .ok s' => loadSegments f env phentsize left { s' with pos := s.pos }).2 ↔
      (f.at s.pos phentsize).length ≤ sizeofPhdr ∧
        ∀ last, scanned f phentsize left s.pos s.phdr = Option.some last →
          ∀ phdr ∈ loaded f env.zalloc phentsize left s.pos last s.segments.length, FitsSegment f phdr := by
  have scan := @findInterp_inside f s phentsize left
  rw [and_iff_right before, forall_prop_of_true some] at scan
  cases found : findInterp f phentsize left s with
  | error exit =>
    rw [found] at scan
    refine scan.trans (and_iff_left fun last reached => ?_).symm
    obtain ⟨s', ok⟩ := findInterp_of_scanned reached
    cases found.symm.trans ok
  | ok s' =>
    obtain ⟨last, -, segments, full⟩ := findInterp_scanned found
    have full := (full some).2
    rw [found, full] at scan
    rw [full, last, ← segments]
    by_cases short : phentsize ≤ sizeofPhdr
    · have load := @loadSegments_inside f env { s' with pos := s.pos } phentsize short left
      refine load.trans (and_congr scan ?_)
      exact ⟨fun fits last' reached => Option.some.inj reached ▸ fits, fun fits => fits _ rfl⟩
    · -- the first header of the first loop is too long already
      refine iff_of_false (fun inside => short (scan.mp ?_)) fun fits => short fits.1
      exact fun access made => inside access (loadSegments_kept f env _ _ _ made)

/-- The loader at the program headers -/
def started (f : File) (env : Environment) : Loader :=
  ⟨ePhoff (f.at env.start sizeofEhdr), env.garbage, [⟨sizeofEhdr, sizeofEhdr, sizeofEhdr⟩], [], []⟩

theorem elfExec_opened (opened : Opened f env) : elfExec f env =
    match findInterp f (ePhentsize (f.at env.start sizeofEhdr)) (ePhnum (f.at env.start sizeofEhdr)) (started f env) with
    | .error exit => exit
    | .ok s =>
      loadSegments f env (ePhentsize (f.at env.start sizeofEhdr)) (ePhnum (f.at env.start sizeofEhdr))
        { s with pos := ePhoff (f.at env.start sizeofEhdr) } := by
  obtain ⟨memory, full, valid, some, buffer, low⟩ := opened
  unfold elfExec elfLoadSegments
  rw [if_neg (by rw [memory]; decide), elfRead_eq]
  dsimp only
  rw [if_pos full, if_neg (not_not_intro rfl), if_neg (not_not_intro valid), if_neg some, if_neg (by rw [buffer]; decide),
    if_neg (Nat.not_le.mpr low), full.2]
  rfl

theorem elfExec_closed (closed : ¬ Opened f env) : (elfExec f env).1 ≠ 0 ∧ Inside (elfExec f env).2 := by
  have header : ∀ access ∈ [(⟨sizeofEhdr, sizeofEhdr, (f.at env.start sizeofEhdr).length⟩ : Access)],
      access.got ≤ access.room := forall_mem_singleton.mpr (length_at_le ..)
  unfold elfExec elfLoadSegments
  dsimp only
  rw [elfRead_eq]
  dsimp only
  split
  · exact ⟨ENOMEM_ne_zero, fun _ none => absurd none not_mem_nil⟩
  · rename_i memory
    by_cases full : f.Has env.start sizeofEhdr
    · rw [if_pos full, if_neg (not_not_intro rfl)]
      split
      · rename_i invalid
        exact ⟨invalid, header⟩
      · rename_i valid
        split
        · exact ⟨EINVAL_ne_zero, header⟩
        · rename_i some
          split
          · exact ⟨ENOMEM_ne_zero, header⟩
          · rename_i buffer
            split
            · have small : ePhoff (f.at env.start sizeofEhdr) < 2 ^ 32 := word_lt _ 28
              refine ⟨?_, header⟩
              dsimp only
              omega
            · rename_i low
              exact absurd ⟨Bool.eq_true_of_not_eq_false memory, full, not_not.mp valid, some,
                Bool.eq_true_of_not_eq_false buffer, Nat.lt_of_not_le low⟩ closed
    · rw [if_neg full, if_pos EINVAL_ne_zero]
      exact ⟨EINVAL_ne_zero, header⟩

/-- A program that is executed has all its segments loaded. -/
theorem elfExec_complete : (elfExec f env).1 = 0 → Complete (elfExec f env).2 := by
  by_cases opened : Opened f env
  · have first : Complete (started f env) := forall_mem_singleton.mpr rfl
    have scan := @findInterp_complete f (started f env) (ePhentsize (f.at env.start sizeofEhdr))
      (ePhnum (f.at env.start sizeofEhdr)) first
    rw [elfExec_opened opened]
    split
    · rename_i found
      rw [found] at scan
      exact scan
    · rename_i found
      rw [found] at scan
      exact loadSegments_complete (scan rfl)
  · exact fun succeeds => absurd succeeds (elfExec_closed opened).1

end Loops

/-- The loader writes inside its buffers, and refuses a file that would leave them, exactly when what the file has of a
program header fits in `Elf32_Phdr`, and for every segment that the second loop comes to the size in memory is neither
less than the bytes of the file nor so large that it wraps around in `kmalloc`. -/
theorem elf_exec_contained (f : File) (env : Environment) : Contained (elfExec f env) ↔ Fits f env := by
  -- a success has written all that was wanted
  have inside : Contained (elfExec f env) ↔ Inside (elfExec f env).2 := by
    refine and_iff_left_of_imp fun inside beyond succeeds => ?_
    obtain ⟨access, made, beyond⟩ := beyond
    have got := elfExec_complete succeeds access made
    have room := inside access made
    omega
  rw [inside]
  by_cases opened : Opened f env
  · rw [elfExec_opened opened, Fits, forall_prop_of_true opened]
    exact loops_inside opened.2.2.2.1 (List.forall_mem_singleton.mpr (Nat.le_refl _))
  · exact iff_of_true (elfExec_closed opened).2 fun opened' => absurd opened' opened

/-- A file whose reads are not short -/
def File.whole (content : List UInt8) (addressed : content.length < 2 ^ 31) : File where
  content := content
  chunk := fun _ count => count
  addressed := addressed
  short := fun _ _ => Nat.le_refl _
  some := fun _ _ positive => positive

/-- The `Elf32_Ehdr` of a shared object whose program headers are behind it -/
def sharedObject (phentsize phnum : UInt8) : List UInt8 :=
  [0x7f, 0x45, 0x4c, 0x46, 1, 1, 1, 0, 0, 0, 0, 0, 0, 0, 0, 0] ++ [3, 0, 0x28, 0, 1, 0, 0, 0, 0, 0, 0, 0, 52, 0, 0, 0] ++
    [0, 0, 0, 0, 0, 0, 0, 0, 52, 0, phentsize, 0, phnum, 0, 0, 0, 0, 0, 0, 0]

/-- The `Elf32_Phdr` of a segment -/
def loadable (offset filesz memsz : UInt8) : List UInt8 :=
  [1, 0, 0, 0, offset, 0, 0, 0, 0, 0, 0, 0, 0, 0, 0, 0] ++ [filesz, 0, 0, 0, memsz, 0, 0, 0, 5, 0, 0, 0, 1, 0, 0, 0]

/-- A shared object with one segment -/
def object (phentsize memsz : UInt8) : File :=
  File.whole (sharedObject phentsize 1 ++ loadable 0 48 memsz ++ List.replicate 32 0) (by
    have small : 116 < 2 ^ 31 := by decide
    exact small)

/-- All allocations succeed. -/
def plenty : Environment := ⟨true, true, fun _ => true, List.replicate 32 0, 0⟩

/-- Program headers of 64 bytes leave `Elf32_Phdr`, and 48 bytes of the file leave a segment of 16. -/
theorem elf_exec_overflows :
    ¬ Contained (elfExec (object 64 48) plenty) ∧ ¬ Contained (elfExec (object 32 16) plenty) := by
  have first (phentsize memsz : UInt8) : Inside (started (object phentsize memsz) plenty) :=
    List.forall_mem_singleton.mpr (Nat.le_refl _)
  constructor
  · intro contained
    have opened : Opened (object 64 48) plenty := ⟨rfl, by decide, by decide, by decide, rfl, by decide⟩
    rw [elfExec_opened opened] at contained
    have fits := (loops_inside (by decide) (first 64 48)).mp contained.1
    exact absurd fits.1 (by decide)
  · intro contained
    have opened : Opened (object 32 16) plenty := ⟨rfl, by decide, by decide, by decide, rfl, by decide⟩
    rw [elfExec_opened opened] at contained
    have fits := (loops_inside (by decide) (first 32 16)).mp contained.1
    have segment := fits.2 ((object 32 16).at 52 32) (by decide) ((object 32 16).at 52 32) (by decide)
    exact absurd (segment.2 (by decide)) (by decide)

/-- The bytes of the file, and zeros up to the size in memory -/
def segment (f : File) (phdr : List UInt8) : List UInt8 :=
  f.at (pOffset phdr) (pFilesz phdr) ++ List.replicate (pMemsz phdr - pFilesz phdr) 0

/-- The places of program headers in a file -/
def table (start count : ℕ) : List ℕ := List.range' start count sizeofPhdr

/-- The segments that the program headers at some places describe -/
def segmentsAt (f : File) (places : List ℕ) : List (List UInt8) :=
  ((places.map fun place => f.at place sizeofPhdr).filter fun phdr => pType phdr = PT_LOAD).map (segment f)

/-- A program header is in the file, needs no interpreter, and the bytes of a segment are in the file and have room in
its memory. -/
structure Proper (f : File) (place : ℕ) : Prop where
  there : place + sizeofPhdr ≤ f.content.length
  static : pType (f.at place sizeofPhdr) ≠ PT_INTERP
  memory : pType (f.at place sizeofPhdr) = PT_LOAD → 0 < pMemsz (f.at place sizeofPhdr)
  room : pType (f.at place sizeofPhdr) = PT_LOAD → pFilesz (f.at place sizeofPhdr) ≤ pMemsz (f.at place sizeofPhdr)
  bytes : pType (f.at place sizeofPhdr) = PT_LOAD → 0 < pFilesz (f.at place sizeofPhdr) →
    pOffset (f.at place sizeofPhdr) + pFilesz (f.at place sizeofPhdr) ≤ f.content.length

/-- A segment is not empty in the file, its size with the header of `kmalloc` does not wrap around, and its bytes end at
the next program header, if there is one. -/
def Placed (f : File) (place : ℕ) (more : Prop) : Prop :=
  pType (f.at place sizeofPhdr) = PT_LOAD →
    0 < pFilesz (f.at place sizeofPhdr) ∧ pMemsz (f.at place sizeofPhdr) + Mm.bufferSize < 2 ^ 32 ∧
      (more → pOffset (f.at place sizeofPhdr) + pFilesz (f.at place sizeofPhdr) = place + sizeofPhdr)

/-- The loader reads the program headers of a table in their order, and gives each segment its memory and its bytes. -/
structure Loads (f : File) (s : Loader) (places : List ℕ) (result : Int × Loader) : Prop where
  succeeds : result.1 = 0
  inside : Inside result.2
  headers : result.2.headers = s.headers ++ places
  segments : result.2.segments = s.segments ++ segmentsAt f places

section Loops
variable {f : File} {env : Environment} {s : Loader}

variable {place : ℕ}

theorem Proper.has (proper : Proper f place) : f.Has place sizeofPhdr := by
  have there := proper.there
  refine ⟨by decide, ?_⟩
  rw [length_at]
  omega

theorem Proper.has_bytes (proper : Proper f place) (load : pType (f.at place sizeofPhdr) = PT_LOAD)
    (some : 0 < pFilesz (f.at place sizeofPhdr)) : pOffset (f.at place sizeofPhdr) < 2 ^ 31 ∧
      f.Has (pOffset (f.at place sizeofPhdr)) (pFilesz (f.at place sizeofPhdr)) := by
  have bytes := proper.bytes load some
  have addressed := f.addressed
  refine ⟨by omega, Nat.ne_of_gt some, ?_⟩
  rw [length_at]
  omega

theorem entry_eq (full : f.Has place sizeofPhdr) (old : List UInt8) :
    entry (f.at place sizeofPhdr) old = f.at place sizeofPhdr := by
  unfold entry
  exact List.take_left' full.2

theorem image_eq {phdr : List UInt8} (full : f.Has (pOffset phdr) (pFilesz phdr)) (room : pFilesz phdr ≤ pMemsz phdr) :
    image f phdr = segment f phdr := by
  unfold image segment
  dsimp only
  rw [full.2, List.take_of_length_le (full.2.le.trans room)]

theorem visited_pos (full : f.Has s.pos sizeofPhdr) : (visited f sizeofPhdr s).pos = s.pos + sizeofPhdr :=
  congrArg (s.pos + ·) full.2

theorem visited_phdr (full : f.Has s.pos sizeofPhdr) : (visited f sizeofPhdr s).phdr = f.at s.pos sizeofPhdr :=
  entry_eq full s.phdr

theorem elfLoadSegment_headers (f : File) (env : Environment) (s : Loader) :
    (elfLoadSegment f env s).2.headers = s.headers := by
  by_cases memory : pMemsz s.phdr = 0 ∨ env.zalloc s.segments.length = false
  · rw [elfLoadSegment_none memory]
  · rw [elfLoadSegment_eq memory]
    split
    · rfl
    · split
      · rfl
      · rfl

theorem loadSegments_headers (f : File) (env : Environment) (phentsize : ℕ) {left : ℕ} (s : Loader) :
    s.headers ++ (if left = 0 then [] else [s.pos]) <+: (loadSegments f env phentsize left s).2.headers := by
  induction left generalizing s with
  | zero =>
    rw [if_pos rfl, append_nil]
    exact prefix_rfl
  | succ left ih =>
    have later (s' : Loader) (kept : s'.headers = s.headers ++ [s.pos]) :
        s.headers ++ [s.pos] <+: (loadSegments f env phentsize left s').2.headers := by
      rw [← kept]
      exact List.IsPrefix.trans (List.prefix_append ..) (ih s')
    rw [loadSegments_succ, if_neg (Nat.succ_ne_zero left)]
    split
    · exact prefix_rfl
    · split
      · exact later _ rfl
      · have loaded := elfLoadSegment_headers f env (visited f phentsize s)
        split
        · rw [loaded]
          exact prefix_rfl
        · exact later _ loaded

theorem segmentsAt_cons (f : File) (place : ℕ) (places : List ℕ) :
    segmentsAt f (place :: places) = segmentsAt f [place] ++ segmentsAt f places := by
  unfold segmentsAt
  rw [← map_append, ← List.filter_append, ← map_append, List.singleton_append]

theorem segmentsAt_load (load : pType (f.at place sizeofPhdr) = PT_LOAD) :
    segmentsAt f [place] = [segment f (f.at place sizeofPhdr)] := by
  unfold segmentsAt
  rw [map_singleton, filter_singleton, decide_eq_true load]
  rfl

theorem segmentsAt_other (other : pType (f.at place sizeofPhdr) ≠ PT_LOAD) : segmentsAt f [place] = [] := by
  unfold segmentsAt
  rw [map_singleton, filter_singleton, decide_eq_false other]
  rfl

theorem loads_nil : Loads f s [] (0, s) ↔ Inside s :=
  ⟨Loads.inside, fun inside => ⟨rfl, inside, (append_nil _).symm, (append_nil _).symm⟩⟩

theorem loads_congr {s' : Loader} {places places' : List ℕ} {result : Int × Loader}
    (headers : s.headers ++ places = s'.headers ++ places')
    (segments : s.segments ++ segmentsAt f places = s'.segments ++ segmentsAt f places') :
    Loads f s places result ↔ Loads f s' places' result := by
  constructor
  · intro loads
    exact ⟨loads.succeeds, loads.inside, loads.headers.trans headers, loads.segments.trans segments⟩
  · intro loads
    exact ⟨loads.succeeds, loads.inside, loads.headers.trans headers.symm, loads.segments.trans segments.symm⟩

theorem loads_cons {s' : Loader} {places : List ℕ} {result : Int × Loader}
    (headers : s'.headers = s.headers ++ [place]) (segments : s'.segments = s.segments ++ segmentsAt f [place]) :
    Loads f s (place :: places) result ↔ Loads f s' places result := by
  apply loads_congr
  · rw [headers, List.append_cons]
  · rw [segments, segmentsAt_cons, List.append_assoc]

theorem not_loads_elsewhere {phentsize left pos : ℕ} (elsewhere : s.pos ≠ pos) (more : 0 < left) :
    ¬ Loads f s (table pos left) (loadSegments f env phentsize left s) := by
  intro loads
  have read := @loadSegments_headers f env phentsize left s
  obtain ⟨rest, rfl⟩ := Nat.exists_eq_succ_of_ne_zero (Nat.ne_of_gt more)
  rw [loads.headers, if_neg (Nat.succ_ne_zero rest), List.prefix_append_right_inj, table, range'_succ,
    List.cons_prefix_cons] at read
  exact elsewhere read.1

theorem elfLoadSegment_loads (memory : ∀ segments, env.zalloc segments = true) (proper : Proper f place)
    (load : pType (f.at place sizeofPhdr) = PT_LOAD) (phdr : s.phdr = f.at place sizeofPhdr)
    (some : 0 < pFilesz (f.at place sizeofPhdr)) :
    (elfLoadSegment f env s).1 = 0 ∧
      (elfLoadSegment f env s).2.pos = pOffset (f.at place sizeofPhdr) + pFilesz (f.at place sizeofPhdr) ∧
      (elfLoadSegment f env s).2.segments = s.segments ++ segmentsAt f [place] ∧
      (Inside (elfLoadSegment f env s).2 ↔ Inside s ∧ pMemsz (f.at place sizeofPhdr) + Mm.bufferSize < 2 ^ 32) := by
  have positive := proper.memory load
  have there := proper.has_bytes load some
  have room := proper.room load
  rw [← phdr] at positive there room
  have given : ¬ (pMemsz s.phdr = 0 ∨ env.zalloc s.segments.length = false) := by
    rw [memory]
    rintro (zero | fails)
    · omega
    · cases fails
  rw [elfLoadSegment_inside given, elfLoadSegment_next given there.1 there.2, segmentsAt_load load, ← phdr,
    image_eq there.2 room]
  exact ⟨rfl, rfl, rfl, and_congr_right fun _ => and_iff_left fun _ => there.2.2.le.trans room⟩

theorem elfLoadSegment_empty (none : pFilesz s.phdr = 0) : (elfLoadSegment f env s).1 ≠ 0 := by
  by_cases memory : pMemsz s.phdr = 0 ∨ env.zalloc s.segments.length = false
  · rw [elfLoadSegment_none memory]
    exact ENOMEM_ne_zero
  · exact elfLoadSegment_fails memory fun there => there.2.1 none

/-- The loop loads a table exactly when the bytes of each segment, if they are followed by another header, end there. -/
theorem loadSegments_loads (memory : ∀ segments, env.zalloc segments = true) {left : ℕ}
    (proper : ∀ i < left, Proper f (s.pos + sizeofPhdr * i)) :
    Loads f s (table s.pos left) (loadSegments f env sizeofPhdr left s) ↔
      Inside s ∧ ∀ i < left, Placed f (s.pos + sizeofPhdr * i) (i + 1 < left) := by
  induction left generalizing s with
  | zero => exact loads_nil.trans (and_iff_left fun i none => absurd none (Nat.not_lt_zero i)).symm
  | succ left ih =>
    have first := proper 0 (Nat.succ_pos left)
    rw [Nat.mul_zero, Nat.add_zero] at first
    have full := first.has
    have place (i : ℕ) : s.pos + sizeofPhdr * (i + 1) = s.pos + sizeofPhdr + sizeofPhdr * i := by
      rw [Nat.mul_succ]
      omega
    have rest (i : ℕ) (inside : i < left) : Proper f (s.pos + sizeofPhdr + sizeofPhdr * i) :=
      place i ▸ proper (i + 1) (Nat.succ_lt_succ inside)
    rw [Nat.forall_lt_succ_left, Nat.mul_zero, Nat.add_zero, loadSegments_succ, if_neg (not_not_intro full),
      visited_phdr full]
    simp only [place, Nat.add_lt_add_iff_right, Nat.add_zero]
    have inside : Inside (visited f sizeofPhdr s) ↔ Inside s :=
      inside_append.trans (and_iff_left (length_at_le ..))
    by_cases load : pType (f.at s.pos sizeofPhdr) = PT_LOAD
    · rw [if_neg (not_not_intro load)]
      by_cases some : 0 < pFilesz (f.at s.pos sizeofPhdr)
      · obtain ⟨succeeds, pos, segments, room⟩ := elfLoadSegment_loads memory first load (visited_phdr full) some
        have headers := elfLoadSegment_headers f env (visited f sizeofPhdr s)
        rw [if_neg (not_not_intro succeeds), table, range'_succ, loads_cons headers segments]
        have placed : Placed f s.pos (0 < left) ↔ pMemsz (f.at s.pos sizeofPhdr) + Mm.bufferSize < 2 ^ 32 ∧
            (0 < left → (elfLoadSegment f env (visited f sizeofPhdr s)).2.pos = s.pos + sizeofPhdr) := by
          rw [pos, Placed, forall_prop_of_true load, and_iff_right some]
        rw [placed, and_assoc, ← and_assoc, ← inside, ← room]
        generalize (elfLoadSegment f env (visited f sizeofPhdr s)).2 = s' at pos segments headers room placed ⊢
        obtain rfl | more := Nat.eq_zero_or_pos left
        · refine loads_nil.trans (and_iff_left ⟨fun none => absurd none (Nat.lt_irrefl 0), ?_⟩).symm
          exact fun m none => absurd none (Nat.not_lt_zero m)
        · rw [forall_prop_of_true more]
          by_cases here : s'.pos = s.pos + sizeofPhdr
          · have next := @ih s'
            rw [here] at next
            rw [and_iff_right here]
            exact next rest
          · exact iff_of_false (not_loads_elsewhere here more) fun all => here all.2.1
      · have none := Nat.eq_zero_of_not_pos some
        rw [← visited_phdr full] at none
        rw [if_pos (elfLoadSegment_empty none)]
        exact iff_of_false (fun loads => elfLoadSegment_empty none loads.succeeds) fun all => some (all.2.1 load).1
    · have next := @ih (visited f sizeofPhdr s)
      rw [visited_pos full, inside] at next
      have nothing : Placed f s.pos (0 < left) := fun load' => absurd load' load
      rw [if_pos load, and_iff_right nothing, ← next rest]
      exact loads_cons rfl (by rw [segmentsAt_other load]; exact (append_nil _).symm)

theorem scanned_proper {left pos : ℕ} (proper : ∀ i < left, Proper f (pos + sizeofPhdr * i)) (old : List UInt8) :
    ∃ last, scanned f sizeofPhdr left pos old = some last := by
  induction left generalizing pos old with
  | zero => exact ⟨old, rfl⟩
  | succ left ih =>
    have first := proper 0 (Nat.succ_pos left)
    have rest (i : ℕ) (inside : i < left) : Proper f (pos + sizeofPhdr + sizeofPhdr * i) := by
      have next := proper (i + 1) (Nat.succ_lt_succ inside)
      rwa [Nat.mul_succ, Nat.add_comm (sizeofPhdr * i), ← Nat.add_assoc] at next
    unfold scanned
    rw [Nat.mul_zero, Nat.add_zero] at first
    rw [entry_eq first.has, if_pos ⟨first.has, first.static⟩]
    exact ih rest _

theorem findInterp_proper {left : ℕ} (proper : ∀ i < left, Proper f (s.pos + sizeofPhdr * i)) (before : Inside s) :
    ∃ s', findInterp f sizeofPhdr left s = .ok s' ∧ Inside s' ∧ s'.headers = s.headers ∧ s'.segments = s.segments := by
  obtain ⟨last, reached⟩ := scanned_proper proper s.phdr
  obtain ⟨s', found⟩ := findInterp_of_scanned reached
  obtain ⟨-, headers, segments, -⟩ := findInterp_scanned found
  have inside := (@findInterp_inside f s sizeofPhdr left).mpr ⟨before, fun _ => length_at_le ..⟩
  rw [found] at inside
  exact ⟨s', found, inside, headers, segments⟩

end Loops

/-- A well-formed file that `verify_file` accepts, and enough memory for it -/
structure Loadable (f : File) (env : Environment) : Prop where
  memory : env.hdr = true ∧ env.phdr = true ∧ ∀ segments, env.zalloc segments = true
  header : f.Has env.start sizeofEhdr
  verified : verifyFile (f.at env.start sizeofEhdr) = 0
  phentsize : ePhentsize (f.at env.start sizeofEhdr) = sizeofPhdr
  proper : ∀ i < ePhnum (f.at env.start sizeofEhdr),
    Proper f (ePhoff (f.at env.start sizeofEhdr) + sizeofPhdr * i)

theorem elfExec_second {f : File} {env : Environment} (loadable : Loadable f env)
    (some : 0 < ePhnum (f.at env.start sizeofEhdr)) :
    ∃ s, elfExec f env = loadSegments f env sizeofPhdr (ePhnum (f.at env.start sizeofEhdr)) s ∧
      s.pos = ePhoff (f.at env.start sizeofEhdr) ∧ Inside s ∧ s.headers = [] ∧ s.segments = [] := by
  have first := (loadable.proper 0 some).there
  have addressed := f.addressed
  have opened : Opened f env := ⟨loadable.memory.1, loadable.header, loadable.verified, Nat.ne_of_gt some,
    loadable.memory.2.1, by omega⟩
  have before : Inside (started f env) := forall_mem_singleton.mpr (Nat.le_refl _)
  obtain ⟨s, found, inside, headers, segments⟩ := @findInterp_proper f (started f env) _ loadable.proper before
  refine ⟨{ s with pos := ePhoff (f.at env.start sizeofEhdr) }, ?_, rfl, inside, headers, segments⟩
  rw [elfExec_opened opened, loadable.phentsize, found]

/-- The loader loads the segments of a file exactly when it has program headers, and every segment has bytes in the
file, does not wrap around in `kmalloc`, and, if another program header follows its own, ends in the file where that
header starts. -/
theorem elf_exec_loads (f : File) (env : Environment) (loadable : Loadable f env) :
    Loads f (started f env) (table (ePhoff (f.at env.start sizeofEhdr)) (ePhnum (f.at env.start sizeofEhdr)))
        (elfExec f env) ↔
      0 < ePhnum (f.at env.start sizeofEhdr) ∧
        ∀ i < ePhnum (f.at env.start sizeofEhdr),
          Placed f (ePhoff (f.at env.start sizeofEhdr) + sizeofPhdr * i) (i + 1 < ePhnum (f.at env.start sizeofEhdr)) := by
  by_cases some : 0 < ePhnum (f.at env.start sizeofEhdr)
  · obtain ⟨s, run, pos, inside, headers, segments⟩ := elfExec_second loadable some
    have proper := loadable.proper
    rw [← pos] at proper
    have loop := loadSegments_loads loadable.memory.2.2 proper
    rw [and_iff_right inside] at loop
    rw [run, and_iff_right some, ← pos, ← loop]
    apply loads_congr
    · rw [headers]
      rfl
    · rw [segments]
      rfl
  · have closed := elfExec_closed (fun opened : Opened f env => some (Nat.pos_of_ne_zero opened.2.2.2.1))
    exact iff_of_false (fun loads => closed.1 loads.succeeds) fun all => some all.1

/-- A shared object with two segments -/
def twoSegments (offset filesz : UInt8) : File :=
  File.whole (sharedObject 32 2 ++ loadable offset filesz 64 ++ loadable 0 48 48 ++ List.replicate 16 0x5a) (by
    have small : 132 < 2 ^ 31 := by decide
    exact small)

theorem twoSegments_loadable {offset filesz : UInt8}
    (known : offset = 36 ∧ filesz = 48 ∨ offset = 116 ∧ (filesz = 16 ∨ filesz = 0)) :
    Loadable (twoSegments offset filesz) plenty := by
  obtain ⟨rfl, rfl⟩ | ⟨rfl, rfl | rfl⟩ := known <;>
  · refine ⟨⟨rfl, rfl, fun _ => rfl⟩, by decide, by decide, by decide, fun i inside => ?_⟩
    obtain rfl | rfl := Nat.le_one_iff_eq_zero_or_eq_one.mp (Nat.le_of_lt_succ inside)
    · exact ⟨by decide +kernel, by decide +kernel, by decide +kernel, by decide +kernel, by decide +kernel⟩
    · exact ⟨by decide +kernel, by decide +kernel, by decide +kernel, by decide +kernel, by decide +kernel⟩

/-- The bytes of the first segment end at the second program header. -/
theorem elf_exec_loads_object : Loads (twoSegments 36 48) (started (twoSegments 36 48) plenty) (table 52 2)
    (elfExec (twoSegments 36 48) plenty) :=
  (elf_exec_loads _ _ (twoSegments_loadable (.inl ⟨rfl, rfl⟩))).mpr ⟨by decide, fun i inside => by
    obtain rfl | rfl := Nat.le_one_iff_eq_zero_or_eq_one.mp (Nat.le_of_lt_succ inside)
    · exact fun _ => ⟨by decide +kernel, by decide +kernel, fun _ => by decide +kernel⟩
    · exact fun _ => ⟨by decide +kernel, by decide +kernel, fun more => absurd more (by decide +kernel)⟩⟩

theorem twoSegments_first {filesz : UInt8} (small : filesz = 16 ∨ filesz = 0) :
    ∃ s, elfExec (twoSegments 116 filesz) plenty = loadSegments (twoSegments 116 filesz) plenty sizeofPhdr 2 s ∧
      (twoSegments 116 filesz).Has s.pos sizeofPhdr ∧
      (visited (twoSegments 116 filesz) sizeofPhdr s).phdr = (twoSegments 116 filesz).at 52 sizeofPhdr := by
  have loadable := twoSegments_loadable (.inr ⟨rfl, small⟩)
  have proper : Proper (twoSegments 116 filesz) 52 := loadable.proper 0 Nat.two_pos
  obtain ⟨s, run, pos, -, -, -⟩ := elfExec_second loadable Nat.two_pos
  have place : s.pos = 52 := pos
  have full : (twoSegments 116 filesz).Has s.pos sizeofPhdr := place ▸ proper.has
  exact ⟨s, run, full, place ▸ visited_phdr full⟩

/-- Behind a segment at the end of the file there is no header, and a segment without bytes is an error. -/
theorem elf_exec_refuses : Loadable (twoSegments 116 16) plenty ∧ (elfExec (twoSegments 116 16) plenty).1 ≠ 0 ∧
    Loadable (twoSegments 116 0) plenty ∧ (elfExec (twoSegments 116 0) plenty).1 ≠ 0 := by
  have full := twoSegments_loadable (.inr ⟨rfl, .inl rfl⟩)
  have empty := twoSegments_loadable (.inr ⟨rfl, .inr rfl⟩)
  refine ⟨full, ?_, empty, ?_⟩
  · obtain ⟨s, run, has, phdr⟩ := twoSegments_first (.inl rfl)
    have load : ¬ pType ((twoSegments 116 16).at 52 sizeofPhdr) ≠ PT_LOAD := by decide +kernel
    have proper : Proper (twoSegments 116 16) 52 := full.proper 0 Nat.two_pos
    obtain ⟨succeeds, behind, -, -⟩ := elfLoadSegment_loads full.memory.2.2 proper (not_not.mp load) phdr
      (by decide +kernel)
    have beyond : ¬ (twoSegments 116 16).Has 132 sizeofPhdr := by decide +kernel
    have place : pOffset ((twoSegments 116 16).at 52 sizeofPhdr) + pFilesz ((twoSegments 116 16).at 52 sizeofPhdr) = 132 := by
      decide +kernel
    rw [run, loadSegments_succ, if_neg (not_not_intro has), phdr, if_neg load, if_neg (not_not_intro succeeds),
      loadSegments_succ, behind, place, if_pos beyond]
    exact EINVAL_ne_zero
  · obtain ⟨s, run, has, phdr⟩ := twoSegments_first (.inr rfl)
    have load : ¬ pType ((twoSegments 116 0).at 52 sizeofPhdr) ≠ PT_LOAD := by decide +kernel
    have nothing : pFilesz ((twoSegments 116 0).at 52 sizeofPhdr) = 0 := by decide +kernel
    rw [← phdr] at nothing
    rw [run, loadSegments_succ, if_neg (not_not_intro has), phdr, if_neg load, if_pos (elfLoadSegment_empty nothing)]
    exact elfLoadSegment_empty nothing

end Phabos.Elf
