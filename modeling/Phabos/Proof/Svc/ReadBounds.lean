import Phabos.Proof.Svc.SwitchReplies

namespace Phabos.Es2
open Library Switch List

/-- A transfer that is used as it should be: it stores inside `rxbuf`, only what it has received is looked at, and not
more is copied than `rx_buf` has room for. -/
structure Within (rxSize : ℕ) (transfer : Transfer) : Prop where
  stored : transfer.length ≤ rxMaxSize
  received : transfer.looked ≤ transfer.length
  room : transfer.copied ≤ rxSize

/-- The reads of the driver, with the size of `rx_buf` where they copy -/
inductive Call where
  | readStatus (cport : BitVec 32)
  | read (rxSize : ℕ)
  | irqFifoRx (cportid : BitVec 32)

/-- The transfers of a read, each with the size of `rx_buf` -/
def Call.transfers (responses : ℕ → RxBytes) (rxbuf : RxBytes) (fuel : ℕ) : Call → List (ℕ × Transfer)
  | .readStatus cport => [(0, (es2ReadStatus (responses 0) cport rxbuf).transfer)]
  | .read rxSize => (es2Read true rxSize responses fuel 0 rxbuf).1.map fun transfer => (rxSize, transfer)
  | .irqFifoRx cportid => (es2IrqFifoRx cportid responses fuel rxbuf).1

def Call.Safe (responses : ℕ → RxBytes) (rxbuf : RxBytes) (call : Call) : Prop :=
  ∀ fuel, ∀ use ∈ call.transfers responses rxbuf fuel, Within use.1 use.2

/-- The header of a status report stands at this offset. -/
def HeaderAt (bytes : RxBytes) (cport : BitVec 32) (offset : ℕ) : Prop :=
  (range 5).map (fun i => bytes (offset + i)) = srptReportHeader cport

instance (bytes : RxBytes) (cport : BitVec 32) (offset : ℕ) : Decidable (HeaderAt bytes cport offset) :=
  inferInstanceAs (Decidable (_ = _))

/-- The place where the header of a report is found -/
structure Reported (bytes : RxBytes) (cport : BitVec 32) (offset : ℕ) : Prop where
  inside : offset < srptSize - srptReportSize
  first : First (HeaderAt bytes cport) offset

/-- The report that is found was received as a whole. -/
def StatusFits (response : RxBytes) (cport : BitVec 32) : Prop :=
  ∀ offset, Reported response cport offset → offset + 5 + srptReportSize ≤ srptSize

/-- The response fits into `rxbuf` and has a marker. If this begins a reply, the data of the reply are in the response
and fit into `rx_buf`. -/
structure ReplyFits (rxSize : ℕ) (response : RxBytes) : Prop where
  stored : replyLength rxSize ≤ rxMaxSize
  marker : ∃ i < replyLength rxSize, First (fun j => Marker (response j)) i ∧
    (response i = strr → i + 4 + respLen response i ≤ replyLength rxSize ∧ respLen response i ≤ rxSize)

/-- Every response fits that is read, which is the first one and each that has only refused ones before it. -/
def RepliesFit (rxSize : ℕ) (responses : ℕ → RxBytes) (start : ℕ) : Prop :=
  ∀ n, (∀ m < n, ∃ i, Refuses (responses (start + m)) (replyLength rxSize) i) → ReplyFits rxSize (responses (start + n))

/-- `rx_fifo_size` of the report whose header stands at the offset -/
def fifoSize (response : RxBytes) (offset : ℕ) : ℕ :=
  (2 ^ 32 + 576 - (be16 (response (offset + 5 + 10)) (response (offset + 5 + 11))).toNat) % 2 ^ 32

/-- The responses of the switch fit the buffers of a read. -/
def Call.Fits (responses : ℕ → RxBytes) : Call → Prop
  | .readStatus cport => StatusFits (responses 0) cport
  | .read rxSize => RepliesFit rxSize responses 0
  | .irqFifoRx cportid => cportid = 4 ∨ cportid = 5 → StatusFits (responses 0) cportid ∧
      ∀ offset, Reported (responses 0) cportid offset → RepliesFit (fifoSize (responses 0) offset) responses 1

section Status
variable {bytes response rxbuf : RxBytes} {cport : BitVec 32} {offset : ℕ}

theorem findHeader_next (other : ¬HeaderAt bytes cport offset) (remaining : ℕ) :
    findHeader bytes cport (remaining + 1) offset = findHeader bytes cport remaining (offset + 1) :=
  if_neg other

theorem headerAt_received (inside : offset < srptSize - srptReportSize) :
    HeaderAt (spiReceive response srptSize rxbuf) cport offset ↔ HeaderAt response cport offset := by
  have same : (range 5).map (fun i => spiReceive response srptSize rxbuf (offset + i)) =
      (range 5).map fun i => response (offset + i) := by
    refine map_congr_left fun i there => if_pos ?_
    have less := mem_range.mp there
    unfold srptSize srptReportSize at *
    omega
  unfold HeaderAt
  rw [same]

theorem findHeader_reported (reported : Reported response cport offset) :
    findHeader (spiReceive response srptSize rxbuf) cport (srptSize - srptReportSize) 0 = some offset := by
  have first : First (HeaderAt (spiReceive response srptSize rxbuf) cport) offset :=
    { here := (headerAt_received reported.inside).mpr reported.first.here
      before := fun j less there =>
        reported.first.before j less ((headerAt_received (Nat.lt_trans less reported.inside)).mp there) }
  apply first.scan (motive := fun remaining i => findHeader _ cport remaining i = some offset) reported.inside
  · intro remaining i other rest
    rwa [findHeader_next other]
  · intro remaining
    exact if_pos first.here

theorem es2ReadStatus_reported (reported : Reported response cport offset) (rxbuf : RxBytes) :
    (es2ReadStatus response cport rxbuf).transfer = ⟨srptSize, offset + 5 + srptReportSize, 0⟩ ∧
      ∃ status, (es2ReadStatus response cport rxbuf).status = some status ∧
        (offset + 5 + srptReportSize ≤ srptSize → status.rxFifoSize = fifoSize response offset) := by
  have found : findHeader (spiReceive response srptSize rxbuf) cport (srptSize - srptReportSize) 0 = some offset :=
    findHeader_reported reported
  unfold es2ReadStatus
  dsimp only
  rw [found]
  refine ⟨rfl, _, rfl, fun whole => ?_⟩
  have received {address : ℕ} (less : address < srptSize) : spiReceive response srptSize rxbuf address = response address :=
    if_pos less
  unfold srptReportSize at whole
  unfold fifoSize
  dsimp only
  rw [received (by omega), received (by omega)]

theorem es2ReadStatus_unreported (none : ∀ offset, ¬Reported response cport offset) (rxbuf : RxBytes) :
    (es2ReadStatus response cport rxbuf).transfer = ⟨srptSize, srptSize - srptReportSize - 1 + 5, 0⟩ ∧
      (es2ReadStatus response cport rxbuf).status = .none := by
  have others : ∀ j < srptSize - srptReportSize, ¬HeaderAt (spiReceive response srptSize rxbuf) cport j := by
    rcases first_or_none (HeaderAt response cport) (srptSize - srptReportSize) with ⟨i, inside, first⟩ | others
    · exact absurd ⟨inside, first⟩ (none i)
    · exact fun j less there => others j less ((headerAt_received less).mp there)
  have missing : findHeader (spiReceive response srptSize rxbuf) cport (0 + (srptSize - srptReportSize)) 0 = .none := by
    apply scan (motive := fun remaining i => findHeader _ cport remaining i = .none) others
    · intro remaining i other rest
      rwa [findHeader_next other]
    · rfl
  rw [Nat.zero_add] at missing
  unfold es2ReadStatus
  dsimp only
  rw [missing]
  exact ⟨rfl, rfl⟩

theorem reported_or (response : RxBytes) (cport : BitVec 32) :
    (∃ offset, Reported response cport offset) ∨ ∀ offset, ¬Reported response cport offset := by
  rcases first_or_none (HeaderAt response cport) (srptSize - srptReportSize) with ⟨i, inside, first⟩ | others
  · exact .inl ⟨i, inside, first⟩
  · exact .inr fun offset reported => others offset reported.inside reported.first.here

theorem within_status : Within 0 (es2ReadStatus response cport rxbuf).transfer ↔ StatusFits response cport := by
  rcases reported_or response cport with ⟨offset, reported⟩ | none
  · rw [(es2ReadStatus_reported reported rxbuf).1]
    constructor
    · intro within other found
      exact found.first.unique reported.first ▸ within.received
    · intro fits
      exact ⟨(by decide : srptSize ≤ rxMaxSize), fits offset reported, Nat.le_refl 0⟩
  · rw [(es2ReadStatus_unreported none rxbuf).1]
    exact iff_of_true ⟨by decide, by decide, Nat.le_refl 0⟩ fun offset found => absurd found (none offset)

end Status

section Reply
variable {rxSize n : ℕ} {response rxbuf : RxBytes} {responses : ℕ → RxBytes}

theorem readSize_eq (stored : replyLength rxSize ≤ rxMaxSize) : readSize rxSize = replyLength rxSize + 7 := by
  have less : readSize rxSize < 2 ^ 32 := Nat.mod_lt _ (by decide)
  unfold replyLength rxMaxSize at *
  omega

theorem respLen_received {i : ℕ} (inside : i + 4 ≤ replyLength rxSize) :
    respLen (scanned rxSize response rxbuf) i = respLen response i := by
  unfold respLen
  rw [scanned_received (by omega), scanned_received (by omega)]

theorem turn_length (rxSize : ℕ) (response rxbuf : RxBytes) :
    (es2ReadTurn true rxSize response rxbuf).transfer.length = replyLength rxSize := by
  unfold es2ReadTurn
  dsimp only
  generalize scanReply _ (readSize rxSize) 0 true = scan
  generalize spiReceive response (replyLength rxSize) rxbuf = bytes
  rw [if_neg (by decide)]
  rcases scan with ⟨_ | i, nullRxbuf⟩
  · rfl
  · dsimp only
    split <;> rfl

theorem first_received {i : ℕ} (received : i < replyLength rxSize) :
    First (fun j => Marker (scanned rxSize response rxbuf j)) i ↔ First (fun j => Marker (response j)) i := by
  have same {j : ℕ} (less : j ≤ i) : scanned rxSize response rxbuf j = response j :=
    scanned_received (Nat.lt_of_le_of_lt less received)
  constructor
  · intro first
    exact ⟨same (Nat.le_refl i) ▸ first.here, fun j less => same (Nat.le_of_lt less) ▸ first.before j less⟩
  · intro first
    exact ⟨(same (Nat.le_refl i)).symm ▸ first.here, fun j less => (same (Nat.le_of_lt less)).symm ▸ first.before j less⟩

theorem not_fits (behind : ∀ i < replyLength rxSize, ¬Marker (scanned rxSize response rxbuf i)) :
    ¬ReplyFits rxSize response := by
  rintro ⟨-, i, received, first, -⟩
  exact behind i received ((first_received received).mpr first).here

theorem within_turn : Within rxSize (es2ReadTurn true rxSize response rxbuf).transfer ↔ ReplyFits rxSize response := by
  by_cases stored : replyLength rxSize ≤ rxMaxSize
  · have size := readSize_eq stored
    rcases first_or_none (fun j => Marker (scanned rxSize response rxbuf j)) (readSize rxSize) with
      ⟨i, inside, first⟩ | others
    · by_cases received : i < replyLength rxSize
      · have own := (first_received received).mp first
        have same : scanned rxSize response rxbuf i = response i := scanned_received received
        rcases first.here with start | start
        · rw [turn_replies ⟨inside, first, start⟩]
          constructor
          · rintro ⟨-, inReply, room⟩
            dsimp only at inReply room
            rw [respLen_received (by omega)] at inReply room
            exact ⟨stored, i, received, own, fun _ => ⟨inReply, room⟩⟩
          · rintro ⟨-, k, -, other, data⟩
            obtain rfl := own.unique other
            obtain ⟨inReply, room⟩ := data (same ▸ start)
            have len : respLen (scanned rxSize response rxbuf) i = respLen response i := respLen_received (by omega)
            exact ⟨stored, len.symm ▸ inReply, len.symm ▸ room⟩
        · rw [turn_refuses ⟨inside, first, start⟩]
          refine iff_of_true ⟨stored, received, Nat.zero_le _⟩ ⟨stored, i, received, own, fun reply => ?_⟩
          rw [← same, start] at reply
          exact absurd reply (by decide)
      · have behind : ∀ j < replyLength rxSize, ¬Marker (scanned rxSize response rxbuf j) :=
          fun j less => first.before j (by omega)
        refine iff_of_false (fun within => ?_) (not_fits behind)
        rcases first.here with start | start
        · have looked := within.received
          rw [turn_replies ⟨inside, first, start⟩] at looked
          dsimp only at looked
          omega
        · have looked := within.received
          rw [turn_refuses ⟨inside, first, start⟩] at looked
          dsimp only at looked
          omega
    · have apart : ¬ReplyFits rxSize response := not_fits fun j less => others j (by omega)
      refine iff_of_false (fun within => ?_) apart
      have looked := within.received
      rw [turn_unmarked others] at looked
      dsimp only at looked
      omega
  · exact iff_of_false (fun within => stored (turn_length rxSize response rxbuf ▸ within.stored)) fun fits =>
      stored fits.stored

theorem mem_es2Read {rxBuf : Bool} {fuel : ℕ} {transfer : Transfer} :
    transfer ∈ (es2Read rxBuf rxSize responses fuel n rxbuf).1 ↔ ∃ k < fuel,
      (∀ j < k, (turnAt rxBuf rxSize responses rxbuf (n + j)).ended = none) ∧
        (turnAt rxBuf rxSize responses rxbuf (n + k)).transfer = transfer := by
  induction fuel generalizing n rxbuf with
  | zero => exact iff_of_false not_mem_nil fun ⟨_, less, _⟩ => Nat.not_lt_zero _ less
  | succ fuel ih =>
    cases ends : (turnAt rxBuf rxSize responses rxbuf n).ended with
    | none =>
      rw [es2Read_next ends, mem_cons, ih]
      simp only [turnAt_rxbuf]
      constructor
      · rintro (rfl | ⟨k, less, before, rfl⟩)
        · exact ⟨0, Nat.succ_pos fuel, nofun, rfl⟩
        · refine ⟨k + 1, Nat.succ_lt_succ less, fun j below => ?_, ?_⟩
          · cases j with
            | zero => exact ends
            | succ j =>
              have place : n + (j + 1) = n + 1 + j := by omega
              rw [place]
              exact before j (Nat.lt_of_succ_lt_succ below)
          · have place : n + (k + 1) = n + 1 + k := by omega
            rw [place]
      · rintro ⟨k, less, before, rfl⟩
        cases k with
        | zero => exact .inl rfl
        | succ k =>
          refine .inr ⟨k, Nat.lt_of_succ_lt_succ less, fun j below => ?_, ?_⟩
          · rw [Nat.add_right_comm]
            exact before (j + 1) (Nat.succ_lt_succ below)
          · rw [Nat.add_right_comm]
            rfl
    | some ended =>
      rw [es2Read_last ends, mem_singleton]
      constructor
      · rintro rfl
        exact ⟨0, Nat.succ_pos fuel, nofun, rfl⟩
      · rintro ⟨k, -, before, rfl⟩
        cases k with
        | zero => rfl
        | succ k =>
          have first := before 0 (Nat.succ_pos k)
          rw [Nat.add_zero, ends] at first
          cases first

theorem refuses_of_goesOn (fits : ReplyFits rxSize response)
    (goesOn : (es2ReadTurn true rxSize response rxbuf).ended = none) :
    ∃ i, Refuses response (replyLength rxSize) i := by
  obtain ⟨stored, i, received, first, -⟩ := fits
  refine ⟨i, received, first, first.here.resolve_left fun start => ?_⟩
  have size := readSize_eq stored
  rw [turn_replies (i := i) ⟨by omega, (first_received received).mpr first, (scanned_received received).trans start⟩] at goesOn
  cases goesOn

theorem goesOn_of_refuses (stored : replyLength rxSize ≤ rxMaxSize) {i : ℕ}
    (refuses : Refuses response (replyLength rxSize) i) : (es2ReadTurn true rxSize response rxbuf).ended = none := by
  have size := readSize_eq stored
  have received := refuses.inside
  rw [turn_refuses (i := i) ⟨by omega, (first_received received).mpr refuses.first,
    (scanned_received received).trans refuses.start⟩]

/-- All transfers of a read stay in the buffer exactly when the replies fit. -/
theorem within_es2Read {start : ℕ} :
    (∀ fuel, ∀ transfer ∈ (es2Read true rxSize responses fuel start rxbuf).1, Within rxSize transfer) ↔
      RepliesFit rxSize responses start := by
  have turn {n : ℕ} : Within rxSize (turnAt true rxSize responses rxbuf n).transfer ↔ ReplyFits rxSize (responses n) :=
    within_turn
  constructor
  · intro within n refused
    have stored : replyLength rxSize ≤ rxMaxSize := by
      have first := within 1 _ (mem_es2Read.mpr ⟨0, Nat.one_pos, nofun, rfl⟩)
      exact (turn.mp first).stored
    refine turn.mp (within (n + 1) _ (mem_es2Read.mpr ⟨n, Nat.lt_succ_self n, fun m less => ?_, rfl⟩))
    obtain ⟨i, refuses⟩ := refused m less
    exact goesOn_of_refuses stored refuses
  · intro fits fuel transfer there
    obtain ⟨k, -, before, rfl⟩ := mem_es2Read.mp there
    refine turn.mpr (fits k ?_)
    -- Each response before it fits, by the ones before that one, and so was a refusal.
    intro m
    induction m using Nat.strong_induction_on with
    | h m ih =>
      intro less
      exact refuses_of_goesOn (fits m fun earlier below => ih earlier below (Nat.lt_trans below less)) (before m less)

end Reply

section Fifo
variable {responses : ℕ → RxBytes} {rxbuf : RxBytes} {cportid : BitVec 32}

theorem irqFifoRx_other (other : cportid ≠ 4 ∧ cportid ≠ 5) (fuel : ℕ) :
    (es2IrqFifoRx cportid responses fuel rxbuf).1 = [] := by
  unfold es2IrqFifoRx
  rw [if_pos other]

theorem irqFifoRx_unreported (data : cportid = 4 ∨ cportid = 5) (none : ∀ offset, ¬Reported (responses 0) cportid offset)
    (fuel : ℕ) : (es2IrqFifoRx cportid responses fuel rxbuf).1 =
      [(0, (es2ReadStatus (responses 0) cportid rxbuf).transfer)] := by
  unfold es2IrqFifoRx
  rw [if_neg fun both => data.elim both.1 both.2]
  dsimp only
  rw [(es2ReadStatus_unreported none rxbuf).2]

theorem irqFifoRx_reported (data : cportid = 4 ∨ cportid = 5) {status : SrptReadStatusReport}
    (found : (es2ReadStatus (responses 0) cportid rxbuf).status = some status) (fuel : ℕ) :
    (es2IrqFifoRx cportid responses fuel rxbuf).1 = (0, (es2ReadStatus (responses 0) cportid rxbuf).transfer) ::
      (es2Read true status.rxFifoSize responses fuel 1 (es2ReadStatus (responses 0) cportid rxbuf).rxbuf).1.map
        fun transfer => (status.rxFifoSize, transfer) := by
  unfold es2IrqFifoRx
  rw [if_neg fun both => data.elim both.1 both.2]
  dsimp only
  rw [found]

theorem within_irqFifoRx (data : cportid = 4 ∨ cportid = 5) :
    (∀ fuel, ∀ use ∈ (es2IrqFifoRx cportid responses fuel rxbuf).1, Within use.1 use.2) ↔
      StatusFits (responses 0) cportid ∧
        ∀ offset, Reported (responses 0) cportid offset → RepliesFit (fifoSize (responses 0) offset) responses 1 := by
  rcases reported_or (responses 0) cportid with ⟨offset, reported⟩ | none
  · obtain ⟨-, status, found, size⟩ := es2ReadStatus_reported reported rxbuf
    simp only [irqFifoRx_reported data found, forall_mem_cons, forall_mem_map, forall_and, forall_const,
      within_status, within_es2Read]
    refine and_congr_right fun fits => ?_
    rw [size (fits offset reported)]
    exact ⟨fun replies other there => there.first.unique reported.first ▸ replies, fun all => all offset reported⟩
  · simp only [irqFifoRx_unreported data none, mem_singleton, forall_eq, forall_const, within_status]
    exact (and_iff_left fun offset reported => absurd reported (none offset)).symm

end Fifo

/-- The reads of the driver are memory safe on exactly the responses that fit its buffers. -/
theorem switch_reads (call : Call) (responses : ℕ → RxBytes) (rxbuf : RxBytes) :
    call.Safe responses rxbuf ↔ call.Fits responses := by
  cases call with
  | readStatus cport =>
    unfold Call.Safe Call.transfers Call.Fits
    simp only [mem_singleton, forall_eq, forall_const]
    exact within_status
  | read rxSize =>
    unfold Call.Safe Call.transfers Call.Fits
    simp only [forall_mem_map]
    exact within_es2Read
  | irqFifoRx cportid =>
    unfold Call.Safe Call.transfers Call.Fits
    dsimp only
    by_cases other : cportid ≠ 4 ∧ cportid ≠ 5
    · simp only [irqFifoRx_other other]
      exact iff_of_true nofun fun data => data.elim (fun same => absurd same other.1) fun same => absurd same other.2
    · have data : cportid = 4 ∨ cportid = 5 := by
        by_contra neither
        exact other (not_or.mp neither)
      rw [within_irqFifoRx data]
      exact ⟨fun fits _ => fits, fun fits => fits data⟩

/-- A reply to an NCP command, whose data are said to have 255 bytes -/
def longReply : RxBytes := fun address => [strr, 0x03, 0x00, 0xff].getD address 0x00

/-- All of them are copied to the confirmation of four bytes, and most of them are behind the response. -/
theorem switch_reads_long :
    (Call.read 4).transfers (fun _ => longReply) (fun _ => 0) 1 = [(4, ⟨20, 259, 255⟩)] ∧
      ¬(Call.read 4).Safe (fun _ => longReply) fun _ => 0 := by
  have uses : (Call.read 4).transfers (fun _ => longReply) (fun _ => 0) 1 = [(4, ⟨20, 259, 255⟩)] := by rfl
  refine ⟨uses, fun safe => ?_⟩
  have within := safe 1 (4, ⟨20, 259, 255⟩) (uses ▸ mem_singleton_self _)
  exact absurd within.room (by decide)

end Phabos.Es2
