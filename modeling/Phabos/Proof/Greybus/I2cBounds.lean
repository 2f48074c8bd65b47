import Phabos.Construction.Greybus.I2c

namespace Phabos.I2c.Buffers
open List
open OperationBuffers (GbResponse gbOperationAllocResponse)

/-- The messages of a call are right: the writes are in the payload of the request, the reads are in that of the
response and do not overlap, and the header of the response says what was allocated. -/
structure MsgsRight (payload : ℕ) (response : GbResponse) (msgs : List Msg) : Prop where
  writes : ∀ msg ∈ msgs, msg.read = false → msg.buffer + msg.length ≤ payload
  reads : ∀ msg ∈ msgs, msg.read = true → hdrSize + msg.buffer + msg.length ≤ response.allocated
  disjoint : (msgs.filter Msg.read).Pairwise fun first second => first.buffer + first.length ≤ second.buffer
  size : response.size = response.allocated

/-- The descriptors that are read are in the payload, and `i2c_transfer` is only called with right messages. -/
structure Transfer.Right (payload : ℕ) (transfer : Transfer) : Prop where
  descs : ∀ i ∈ transfer.descs, descAt i + 6 ≤ payload
  called : ∀ msgs ∈ transfer.msgs, ∃ response ∈ transfer.response, MsgsRight payload response msgs

/-- The bytes that the descriptors want to read, and to write -/
def sizesOf (request : ℕ → UInt8) (read : Bool) (descs : List ℕ) : ℕ :=
  ((descs.filter fun i => readOp request i = read).map (descSize request)).sum

/-- The descriptors are in the payload. If there is memory for the messages and the response, what is written is behind
them in the payload as well, and the response has less than 2^16 bytes. -/
structure Fits (memory : Bool) (malloc : ℕ → Bool) (request : ℕ → UInt8) (payload : ℕ) : Prop where
  descs : descAt (le16At request 0) ≤ payload
  data : memory = true → malloc (sizesOf request true (List.range (le16At request 0)) + hdrSize) = true →
    descAt (le16At request 0) + sizesOf request false (List.range (le16At request 0)) ≤ payload ∧
      sizesOf request true (List.range (le16At request 0)) + hdrSize < 2 ^ 16

section Msgs
variable {request : ℕ → UInt8} {descs : List ℕ} {i : ℕ}

theorem sizesOf_cons (request : ℕ → UInt8) (read : Bool) (i : ℕ) (descs : List ℕ) :
    sizesOf request read (i :: descs) =
      (if readOp request i = read then descSize request i else 0) + sizesOf request read descs := by
  unfold sizesOf
  rw [filter_cons]
  by_cases same : readOp request i = read
  · simp [same]
  · simp [same]

theorem descSize_lt (request : ℕ → UInt8) (i : ℕ) : descSize request i < 2 ^ 16 := by
  have low := (request (descAt i + 4)).toNat_lt
  have high := (request (descAt i + 4 + 1)).toNat_lt
  unfold descSize le16At
  omega

theorem sizesOf_le (request : ℕ → UInt8) (read : Bool) (descs : List ℕ) :
    sizesOf request read descs ≤ descs.length * (2 ^ 16 - 1) := by
  induction descs with
  | nil => exact Nat.le_refl 0
  | cons i descs ih =>
    have size := descSize_lt request i
    rw [sizesOf_cons, length_cons, Nat.succ_mul]
    split <;> omega

theorem buildMsgs_read (op : readOp request i = true) (descs : List ℕ) (writeData readCount : ℕ) :
    buildMsgs request (i :: descs) writeData readCount =
      ⟨true, readCount, descSize request i⟩ :: buildMsgs request descs writeData (readCount + descSize request i) :=
  if_pos op

theorem buildMsgs_write (op : readOp request i = false) (descs : List ℕ) (writeData readCount : ℕ) :
    buildMsgs request (i :: descs) writeData readCount =
      ⟨false, writeData, descSize request i⟩ :: buildMsgs request descs (writeData + descSize request i) readCount :=
  if_neg (Bool.eq_false_iff.mp op)

/-- The buffers of the writes lie one behind the other, so that all are in the payload if the last one ends there. -/
theorem buildMsgs_writes {payload : ℕ} (descs : List ℕ) (writeData readCount : ℕ) (inside : writeData ≤ payload) :
    (∀ msg ∈ buildMsgs request descs writeData readCount, msg.read = false → msg.buffer + msg.length ≤ payload) ↔
      writeData + sizesOf request false descs ≤ payload := by
  induction descs generalizing writeData readCount with
  | nil => exact iff_of_true nofun inside
  | cons i descs ih =>
    rw [sizesOf_cons]
    cases op : readOp request i with
    | true =>
      rw [buildMsgs_read op, forall_mem_cons, ih _ _ inside, if_neg Bool.noConfusion, Nat.zero_add]
      exact and_iff_right nofun
    | false =>
      rw [buildMsgs_write op, forall_mem_cons, if_pos rfl, ← Nat.add_assoc]
      dsimp only
      constructor
      · rintro ⟨own, rest⟩
        exact (ih _ _ (own rfl)).mp rest
      · intro all
        have own : writeData + descSize request i ≤ payload := Nat.le_trans (Nat.le_add_right _ _) all
        exact ⟨fun _ => own, (ih _ _ own).mpr all⟩

theorem buildMsgs_reads (descs : List ℕ) (writeData readCount : ℕ) :
    ∀ msg ∈ buildMsgs request descs writeData readCount, msg.read = true →
      readCount ≤ msg.buffer ∧ msg.buffer + msg.length ≤ readCount + sizesOf request true descs := by
  induction descs generalizing writeData readCount with
  | nil => exact nofun
  | cons i descs ih =>
    rw [sizesOf_cons]
    cases op : readOp request i with
    | true =>
      rw [buildMsgs_read op, forall_mem_cons, if_pos rfl]
      refine ⟨fun _ => ?_, fun msg there read => ?_⟩
      · dsimp only
        omega
      · have rest := ih _ _ msg there read
        omega
    | false =>
      rw [buildMsgs_write op, forall_mem_cons, if_neg Bool.noConfusion, Nat.zero_add]
      exact ⟨nofun, ih _ _⟩

theorem buildMsgs_disjoint (descs : List ℕ) (writeData readCount : ℕ) :
    ((buildMsgs request descs writeData readCount).filter Msg.read).Pairwise fun first second =>
      first.buffer + first.length ≤ second.buffer := by
  induction descs generalizing writeData readCount with
  | nil => exact List.Pairwise.nil
  | cons i descs ih =>
    cases op : readOp request i with
    | true =>
      rw [buildMsgs_read op, filter_cons_of_pos rfl, pairwise_cons]
      refine ⟨fun msg there => ?_, ih _ _⟩
      obtain ⟨listed, read⟩ := mem_filter.mp there
      exact (buildMsgs_reads descs _ _ msg listed read).1
    | false =>
      rw [buildMsgs_write op, filter_cons_of_neg Bool.false_ne_true]
      exact ih _ _

end Msgs

section Transfer
variable {memory : Bool} {malloc : ℕ → Bool} {request : ℕ → UInt8} {payload : ℕ}

theorem readSize_eq (request : ℕ → UInt8) : readSize request (range (le16At request 0)) =
      sizesOf request true (range (le16At request 0)) ∧
    sizesOf request true (range (le16At request 0)) + hdrSize < 2 ^ 32 := by
  have low := (request 0).toNat_lt
  have high := (request (0 + 1)).toNat_lt
  have count : le16At request 0 ≤ 2 ^ 16 - 1 := by
    unfold le16At
    omega
  have sum := sizesOf_le request true (range (le16At request 0))
  rw [length_range] at sum
  have product := Nat.mul_le_mul_right (2 ^ 16 - 1) count
  have same : ((range (le16At request 0)).filter (readOp request)) =
      (range (le16At request 0)).filter fun i => readOp request i = true := by simp
  unfold readSize hdrSize
  rw [same]
  change sizesOf request true _ % 2 ^ 32 = sizesOf request true _ ∧ _
  exact ⟨Nat.mod_eq_of_lt (by omega), by omega⟩

theorem descs_inside {count : ℕ} (some : count ≠ 0) :
    (∀ i ∈ range count, descAt i + 6 ≤ payload) ↔ descAt count ≤ payload := by
  unfold descAt
  constructor
  · intro all
    have last := all (count - 1) (mem_range.mpr (by omega))
    omega
  · intro fits i there
    have less := mem_range.mp there
    omega

/-- The response that the sizes of the reads lead to -/
def responseOf (request : ℕ → UInt8) : GbResponse :=
  ⟨sizesOf request true (List.range (le16At request 0)) + hdrSize,
    (sizesOf request true (List.range (le16At request 0)) + hdrSize) % 2 ^ 16⟩

/-- The messages are right exactly when the written data are inside the payload and the response
fits. -/
theorem msgs_right (inside : descAt (le16At request 0) ≤ payload) :
    MsgsRight payload (responseOf request)
        (buildMsgs request (range (le16At request 0)) (descAt (le16At request 0)) 0) ↔
      descAt (le16At request 0) + sizesOf request false (range (le16At request 0)) ≤ payload ∧
        sizesOf request true (range (le16At request 0)) + hdrSize < 2 ^ 16 := by
  constructor
  · intro right
    refine ⟨(buildMsgs_writes _ _ 0 inside).mp right.writes, ?_⟩
    have size : (sizesOf request true (range (le16At request 0)) + hdrSize) % 2 ^ 16 =
        sizesOf request true (range (le16At request 0)) + hdrSize := right.size
    have small := Nat.mod_lt (sizesOf request true (range (le16At request 0)) + hdrSize) (by decide : 2 ^ 16 > 0)
    omega
  · rintro ⟨written, small⟩
    refine ⟨(buildMsgs_writes _ _ 0 inside).mpr written, fun msg there read => ?_, buildMsgs_disjoint _ _ _,
      Nat.mod_eq_of_lt small⟩
    have placed := (buildMsgs_reads _ _ _ msg there read).2
    unfold responseOf
    dsimp only
    omega

theorem transfer_refused (refused : le16At request 0 = 0 ∨ memory = false) :
    gbI2cProtocolTransfer memory malloc request = ⟨range (le16At request 0), none, none⟩ := by
  have either : le16At request 0 = 0 ∨ !memory := by
    simpa using refused
  unfold gbI2cProtocolTransfer
  exact if_pos either

theorem transfer_called (some : le16At request 0 ≠ 0) : gbI2cProtocolTransfer true malloc request =
    if malloc (sizesOf request true (range (le16At request 0)) + hdrSize) = true then
      ⟨range (le16At request 0), responseOf request,
        .some (buildMsgs request (range (le16At request 0)) (descAt (le16At request 0)) 0)⟩
    else ⟨range (le16At request 0), none, none⟩ := by
  obtain ⟨size, small⟩ := readSize_eq request
  have neither : ¬(le16At request 0 = 0 ∨ !true) := by simp [some]
  have header : OperationBuffers.hdrSize = hdrSize := rfl
  unfold gbI2cProtocolTransfer gbOperationAllocResponse
  dsimp only
  rw [if_neg neither, size, header, Nat.mod_eq_of_lt small]
  by_cases allocated : malloc (sizesOf request true (range (le16At request 0)) + hdrSize) = true
  · rw [if_pos allocated, if_pos allocated]
    rfl
  · rw [if_neg allocated, if_neg allocated]

end Transfer

/-- A transfer keeps to its buffers exactly where the request has no descriptors, or the payload holds all that they
need and the response has less than 2^16 bytes. -/
theorem i2c_transfer_bounds (memory : Bool) (malloc : ℕ → Bool) (request : ℕ → UInt8) (payload : ℕ) :
    (gbI2cProtocolTransfer memory malloc request).Right payload ↔
      le16At request 0 = 0 ∨ Fits memory malloc request payload := by
  by_cases none : le16At request 0 = 0
  · rw [transfer_refused (.inl none), none]
    exact iff_of_true ⟨nofun, nofun⟩ (.inl rfl)
  rw [or_iff_right none]
  have descs : (∀ i ∈ List.range (le16At request 0), descAt i + 6 ≤ payload) ↔ descAt (le16At request 0) ≤ payload :=
    descs_inside none
  cases memory with
  | false =>
    rw [transfer_refused (.inr rfl)]
    exact ⟨fun right => ⟨descs.mp right.descs, nofun⟩, fun fits => ⟨descs.mpr fits.descs, nofun⟩⟩
  | true =>
    rw [transfer_called none]
    by_cases allocated : malloc (sizesOf request true (List.range (le16At request 0)) + hdrSize) = true
    · rw [if_pos allocated]
      constructor
      · intro right
        have inside := descs.mp right.descs
        obtain ⟨response, same, msgs⟩ := right.called _ rfl
        obtain rfl := Option.some.inj same
        exact ⟨inside, fun _ _ => (msgs_right inside).mp msgs⟩
      · intro fits
        refine ⟨descs.mpr fits.descs, fun msgs called => ⟨_, rfl, ?_⟩⟩
        obtain rfl := Option.some.inj called
        exact (msgs_right fits.descs).mpr (fits.data rfl allocated)
    · rw [if_neg allocated]
      exact ⟨fun right => ⟨descs.mp right.descs, fun _ some => absurd some allocated⟩,
        fun fits => ⟨descs.mpr fits.descs, nofun⟩⟩

/-- A request with one descriptor, which wants to write 512 bytes and is the last of the payload -/
def longWrite : ℕ → UInt8 := fun address => [1, 0, 0x50, 0, 0, 0, 0, 2].getD address 0

/-- The bus is told to write the 512 bytes behind the payload. -/
theorem i2c_transfer_bounds_write :
    (gbI2cProtocolTransfer true (fun _ => true) longWrite).msgs = some [⟨false, 8, 512⟩] ∧
      ¬(gbI2cProtocolTransfer true (fun _ => true) longWrite).Right 8 := by
  have called : (gbI2cProtocolTransfer true (fun _ => true) longWrite).msgs = some [⟨false, 8, 512⟩] := by
    decide +kernel
  refine ⟨called, fun right => ?_⟩
  obtain ⟨response, -, msgs⟩ := right.called _ called
  exact absurd (msgs.writes _ (List.mem_singleton_self _) rfl) (by decide)

end Phabos.I2c.Buffers
