import Phabos.Proof.Svc.WriteStatus

namespace Phabos.Es2
open Library Switch

/-- A byte that ends the scan of a reply -/
def Marker (byte : Byte) : Prop := byte = strr ∨ byte = nack

instance (byte : Byte) : Decidable (Marker byte) := inferInstanceAs (Decidable (_ ∨ _))

/-- What the scan of a transfer sees: the bytes of its response, and behind them what `rxbuf` has held before -/
def scanned (rxSize : ℕ) (response rxbuf : RxBytes) : RxBytes := spiReceive response (replyLength rxSize) rxbuf

/-- A reply begins before any NACK. -/
structure Replies (bytes : RxBytes) (size i : ℕ) : Prop where
  inside : i < size
  first : First (fun j => Marker (bytes j)) i
  start : bytes i = strr

/-- A NACK comes before any reply. -/
structure Refuses (bytes : RxBytes) (size i : ℕ) : Prop where
  inside : i < size
  first : First (fun j => Marker (bytes j)) i
  start : bytes i = nack

/-- There are only NUL bytes. -/
def Silent (bytes : RxBytes) (size : ℕ) : Prop := ∀ i < size, Nul (bytes i)

section Scan
variable {bytes : RxBytes} {size i : ℕ}

theorem Marker.not_nul {byte : Byte} (marker : Marker byte) : ¬Nul byte := by
  rcases marker with rfl | rfl <;> decide

theorem nul_iff (byte : Byte) : ¬(byte ≠ lnul ∧ byte ≠ hnul) ↔ Nul byte := by
  rw [not_and_or, not_not, not_not]
  exact Or.comm

theorem scanReply_next (other : ¬Marker (bytes i)) (remaining : ℕ) (nullRxbuf : Bool) :
    scanReply bytes (remaining + 1) i nullRxbuf =
      scanReply bytes remaining (i + 1) (nullRxbuf && decide (Nul (bytes i))) := by
  have regular : ¬(bytes i = strr ∨ bytes i = nack) := other
  have flag : (if bytes i ≠ lnul ∧ bytes i ≠ hnul then false else nullRxbuf) = (nullRxbuf && decide (Nul (bytes i))) := by
    split
    · rename_i both
      rw [decide_eq_false fun nul => (nul_iff _).mpr nul both, Bool.and_false]
    · rename_i nul
      rw [decide_eq_true ((nul_iff _).mp nul), Bool.and_true]
  rw [scanReply, flag]
  exact if_neg regular

theorem scanReply_marker (marker : Marker (bytes i)) (remaining : ℕ) (nullRxbuf : Bool) :
    scanReply bytes (remaining + 1) i nullRxbuf = (some i, false) := by
  have ends : bytes i = strr ∨ bytes i = nack := marker
  have other : bytes i ≠ lnul ∧ bytes i ≠ hnul := not_not.mp fun nul => marker.not_nul ((nul_iff _).mp nul)
  rw [scanReply, if_pos ends, if_pos other]

theorem scanReply_first (first : First (fun j => Marker (bytes j)) i) (inside : i < size) :
    ∀ nullRxbuf, scanReply bytes size 0 nullRxbuf = (some i, false) := by
  apply first.scan (motive := fun remaining j => ∀ nullRxbuf, scanReply bytes remaining j nullRxbuf = (some i, false)) inside
  · intro remaining j other rest nullRxbuf
    rw [scanReply_next other]
    exact rest _
  · exact scanReply_marker first.here

theorem scanReply_none (others : ∀ j < size, ¬Marker (bytes j)) :
    scanReply bytes size 0 true = (none, decide (∀ j < size, Nul (bytes j))) := by
  have flags : ∀ nullRxbuf, scanReply bytes (0 + size) 0 nullRxbuf =
      (none, nullRxbuf && decide (∀ k < 0 + size, Nul (bytes (0 + k)))) := by
    apply scan (motive := fun remaining j => ∀ nullRxbuf, scanReply bytes remaining j nullRxbuf =
      (none, nullRxbuf && decide (∀ k < remaining, Nul (bytes (j + k))))) others
    · intro remaining j other rest nullRxbuf
      rw [scanReply_next other, rest, Bool.and_assoc, ← Bool.decide_and]
      refine congrArg (fun flag => (none, nullRxbuf && flag)) (decide_eq_decide.mpr ?_)
      rw [Nat.forall_lt_succ_left]
      simp only [Nat.add_zero, Nat.add_assoc, Nat.add_comm 1]
    · simp [scanReply]
  simpa using flags true

end Scan

section Turn
variable {bytes response rxbuf : RxBytes} {rxSize i : ℕ}

theorem turn_replies (replies : Replies (scanned rxSize response rxbuf) (readSize rxSize) i) :
    es2ReadTurn true rxSize response rxbuf = ⟨scanned rxSize response rxbuf,
      ⟨replyLength rxSize, i + 4 + respLen (scanned rxSize response rxbuf) i, respLen (scanned rxSize response rxbuf) i⟩,
      some ⟨0, some ((List.range (respLen (scanned rxSize response rxbuf) i)).map fun j =>
        scanned rxSize response rxbuf (i + 4 + j))⟩⟩ := by
  have scan := scanReply_first replies.first replies.inside true
  unfold scanned at scan
  unfold es2ReadTurn
  dsimp only
  rw [if_neg (by decide), scan]
  exact if_pos replies.start

theorem turn_refuses (refuses : Refuses (scanned rxSize response rxbuf) (readSize rxSize) i) :
    es2ReadTurn true rxSize response rxbuf =
      ⟨scanned rxSize response rxbuf, ⟨replyLength rxSize, i + 1, 0⟩, none⟩ := by
  have scan := scanReply_first refuses.first refuses.inside true
  have other : scanned rxSize response rxbuf i ≠ strr := by
    rw [refuses.start]
    decide
  unfold scanned at scan
  unfold es2ReadTurn
  dsimp only
  rw [if_neg (by decide), scan]
  exact if_neg other

theorem turn_unmarked (others : ∀ j < readSize rxSize, ¬Marker (scanned rxSize response rxbuf j)) :
    es2ReadTurn true rxSize response rxbuf =
      ⟨scanned rxSize response rxbuf, ⟨replyLength rxSize, readSize rxSize, 0⟩,
        notDone (decide (∀ j < readSize rxSize, Nul (scanned rxSize response rxbuf j)))⟩ := by
  have scan := scanReply_none others
  unfold scanned at scan
  unfold es2ReadTurn
  dsimp only
  rw [if_neg (by decide), scan]
  rfl

theorem scanned_scanned (rxSize : ℕ) (response earlier rxbuf : RxBytes) :
    scanned rxSize response (scanned rxSize earlier rxbuf) = scanned rxSize response rxbuf := by
  funext address
  unfold scanned spiReceive
  split <;> rfl

theorem turn_rxbuf (rxBuf : Bool) (rxSize : ℕ) (response rxbuf : RxBytes) :
    (es2ReadTurn rxBuf rxSize response rxbuf).rxbuf = scanned rxSize response rxbuf := by
  unfold es2ReadTurn scanned
  dsimp only
  generalize scanReply _ (readSize rxSize) 0 true = scan
  generalize spiReceive response (replyLength rxSize) rxbuf = bytes
  cases rxBuf with
  | false => rfl
  | true =>
    rcases scan with ⟨_ | i, nullRxbuf⟩
    · rfl
    · rw [if_neg (by decide)]
      dsimp only
      split <;> rfl

theorem turn_scanned (rxBuf : Bool) (rxSize : ℕ) (response earlier rxbuf : RxBytes) :
    es2ReadTurn rxBuf rxSize response (scanned rxSize earlier rxbuf) = es2ReadTurn rxBuf rxSize response rxbuf := by
  have same := scanned_scanned rxSize response earlier rxbuf
  unfold scanned at same
  unfold es2ReadTurn scanned
  rw [same]

end Turn

section Loop
variable {rxBuf : Bool} {rxSize : ℕ} {responses : ℕ → RxBytes} {rxbuf : RxBytes}

/-- The turn with the transfer `n` of a stream of responses -/
def turnAt (rxBuf : Bool) (rxSize : ℕ) (responses : ℕ → RxBytes) (rxbuf : RxBytes) (n : ℕ) : ReadTurn :=
  es2ReadTurn rxBuf rxSize (responses n) rxbuf

theorem turnAt_rxbuf (n later : ℕ) : turnAt rxBuf rxSize responses (turnAt rxBuf rxSize responses rxbuf n).rxbuf later =
    turnAt rxBuf rxSize responses rxbuf later := by
  unfold turnAt
  rw [turn_rxbuf, turn_scanned]

theorem es2Read_next {n : ℕ} (goesOn : (turnAt rxBuf rxSize responses rxbuf n).ended = none) (fuel : ℕ) :
    es2Read rxBuf rxSize responses (fuel + 1) n rxbuf =
      ((turnAt rxBuf rxSize responses rxbuf n).transfer ::
        (es2Read rxBuf rxSize responses fuel (n + 1) (turnAt rxBuf rxSize responses rxbuf n).rxbuf).1,
        (es2Read rxBuf rxSize responses fuel (n + 1) (turnAt rxBuf rxSize responses rxbuf n).rxbuf).2) := by
  unfold turnAt at goesOn
  rw [es2Read, goesOn]
  rfl

/-- The turn that ends a read is its last one. -/
theorem es2Read_last {n : ℕ} {ended : ReadEnd} (ends : (turnAt rxBuf rxSize responses rxbuf n).ended = some ended)
    (fuel : ℕ) : es2Read rxBuf rxSize responses (fuel + 1) n rxbuf =
      ([(turnAt rxBuf rxSize responses rxbuf n).transfer], some ended) := by
  unfold turnAt at ends
  rw [es2Read, ends]
  rfl

/-- The transfers of the turns from `n` on -/
def transfersFrom (rxBuf : Bool) (rxSize : ℕ) (responses : ℕ → RxBytes) (rxbuf : RxBytes) (n count : ℕ) :
    List Transfer :=
  (List.range' n count).map fun m => (turnAt rxBuf rxSize responses rxbuf m).transfer

theorem es2Read_ended {k n fuel : ℕ} {ended : ReadEnd}
    (before : ∀ j < k, (turnAt rxBuf rxSize responses rxbuf (n + j)).ended = none)
    (here : (turnAt rxBuf rxSize responses rxbuf (n + k)).ended = some ended) (enough : k < fuel) :
    es2Read rxBuf rxSize responses fuel n rxbuf =
      (transfersFrom rxBuf rxSize responses rxbuf n (k + 1), some ended) := by
  induction k generalizing n fuel rxbuf with
  | zero =>
    obtain ⟨fuel, rfl⟩ := Nat.exists_eq_succ_of_ne_zero (Nat.ne_of_gt enough)
    exact es2Read_last here fuel
  | succ k ih =>
    obtain ⟨fuel, rfl⟩ := Nat.exists_eq_succ_of_ne_zero (Nat.ne_of_gt (Nat.zero_lt_of_lt enough))
    have first : (turnAt rxBuf rxSize responses rxbuf n).ended = none := before 0 (Nat.succ_pos k)
    have rest : es2Read rxBuf rxSize responses fuel (n + 1) (turnAt rxBuf rxSize responses rxbuf n).rxbuf =
        (transfersFrom rxBuf rxSize responses (turnAt rxBuf rxSize responses rxbuf n).rxbuf (n + 1) (k + 1),
          some ended) := ih
      (fun j less => by
        rw [turnAt_rxbuf, Nat.add_right_comm]
        exact before (j + 1) (Nat.succ_lt_succ less))
      (by
        rw [turnAt_rxbuf, Nat.add_right_comm]
        exact here) (Nat.lt_of_succ_lt_succ enough)
    rw [es2Read_next first, rest]
    unfold transfersFrom
    simp only [turnAt_rxbuf]
    rfl

theorem es2Read_running {n fuel : ℕ} (before : ∀ j < fuel, (turnAt rxBuf rxSize responses rxbuf (n + j)).ended = none) :
    es2Read rxBuf rxSize responses fuel n rxbuf = (transfersFrom rxBuf rxSize responses rxbuf n fuel, none) := by
  induction fuel generalizing n rxbuf with
  | zero => rfl
  | succ fuel ih =>
    have first : (turnAt rxBuf rxSize responses rxbuf n).ended = none := before 0 (Nat.succ_pos fuel)
    have rest : es2Read rxBuf rxSize responses fuel (n + 1) (turnAt rxBuf rxSize responses rxbuf n).rxbuf =
        (transfersFrom rxBuf rxSize responses (turnAt rxBuf rxSize responses rxbuf n).rxbuf (n + 1) fuel, none) :=
      ih fun j less => by
      rw [turnAt_rxbuf, Nat.add_right_comm]
      exact before (j + 1) (Nat.succ_lt_succ less)
    rw [es2Read_next first, rest]
    unfold transfersFrom
    simp only [turnAt_rxbuf]
    rfl

end Loop

/-- The bytes that a turn takes for the data of the reply that begins at `i` -/
def replyData (bytes : RxBytes) (i : ℕ) : List Byte := (List.range (respLen bytes i)).map fun j => bytes (i + 4 + j)

/-- What `es2_read` promises for a stream of which a response has neither an STRR nor a NACK: after finitely many
transfers it returns an error, or 0 where the last response has begun a reply whose data is copied. -/
def Answers (rxBuf : Bool) (rxSize : ℕ) (responses : ℕ → RxBytes) (rxbuf : RxBytes) : Prop :=
  (∃ n, ∀ i < replyLength rxSize, ¬Marker (responses n i)) →
    ∃ fuel ended, (es2Read rxBuf rxSize responses fuel 0 rxbuf).2 = some ended ∧
      (ended.ret < 0 ∨ ended.ret = 0 ∧ ∃ n i, (es2Read rxBuf rxSize responses fuel 0 rxbuf).1.length = n + 1 ∧
        Replies (responses n) (replyLength rxSize) i ∧
        ended.copied = some (replyData (scanned rxSize (responses n) rxbuf) i))

/-- A transfer that ends the loop: a reply begins before any NACK, or there are only NUL bytes. -/
def Stops (bytes : RxBytes) (size : ℕ) : Prop := (∃ i, Replies bytes size i) ∨ Silent bytes size

/-- There is a transfer that ends the loop, and the first one has only NUL bytes or begins a reply in its response. -/
def Ends (rxSize : ℕ) (responses : ℕ → RxBytes) (rxbuf : RxBytes) : Prop :=
  ∃ n, First (fun m => Stops (scanned rxSize (responses m) rxbuf) (readSize rxSize)) n ∧
    (Silent (scanned rxSize (responses n) rxbuf) (readSize rxSize) ∨
      ∃ i < replyLength rxSize, Replies (scanned rxSize (responses n) rxbuf) (readSize rxSize) i)

section Termination
variable {rxSize n i : ℕ} {responses : ℕ → RxBytes} {response rxbuf : RxBytes}

theorem scanned_received (inside : i < replyLength rxSize) : scanned rxSize response rxbuf i = response i := by
  unfold scanned spiReceive
  rw [if_pos inside]

theorem turnAt_silent (silent : Silent (scanned rxSize (responses n) rxbuf) (readSize rxSize)) :
    (turnAt true rxSize responses rxbuf n).ended = some ⟨- eio, none⟩ := by
  have nuls : ∀ j < readSize rxSize, Nul (scanned rxSize (responses n) rxbuf j) := silent
  unfold turnAt
  rw [turn_unmarked fun j less marker => marker.not_nul (nuls j less), decide_eq_true nuls]
  rfl

theorem turnAt_replies (replies : Replies (scanned rxSize (responses n) rxbuf) (readSize rxSize) i) :
    (turnAt true rxSize responses rxbuf n).ended =
      some ⟨0, some (replyData (scanned rxSize (responses n) rxbuf) i)⟩ := by
  unfold turnAt
  rw [turn_replies replies]
  rfl

theorem turnAt_goesOn (goesOn : ¬Stops (scanned rxSize (responses n) rxbuf) (readSize rxSize)) :
    (turnAt true rxSize responses rxbuf n).ended = none := by
  obtain ⟨silence, noise⟩ := not_or.mp goesOn
  unfold turnAt
  rcases first_or_none (fun j => Marker (scanned rxSize (responses n) rxbuf j)) (readSize rxSize) with
    ⟨i, inside, first⟩ | others
  · rcases first.here with start | start
    · exact absurd ⟨i, inside, first, start⟩ silence
    · rw [turn_refuses ⟨inside, first, start⟩]
  · have other : ¬∀ j < readSize rxSize, Nul (scanned rxSize (responses n) rxbuf j) := noise
    rw [turn_unmarked others, decide_eq_false other]
    rfl

theorem Replies.received (replies : Replies (scanned rxSize response rxbuf) (readSize rxSize) i)
    (inside : i < replyLength rxSize) : Replies response (replyLength rxSize) i := by
  have same {j : ℕ} (less : j ≤ i) : scanned rxSize response rxbuf j = response j :=
    scanned_received (Nat.lt_of_le_of_lt less inside)
  refine ⟨inside, ⟨?_, fun j less => ?_⟩, ?_⟩
  · exact same (Nat.le_refl i) ▸ replies.first.here
  · exact same (Nat.le_of_lt less) ▸ replies.first.before j less
  · exact same (Nat.le_refl i) ▸ replies.start

theorem es2Read_first (first : First (fun m => Stops (scanned rxSize (responses m) rxbuf) (readSize rxSize)) n)
    {ended : ReadEnd} (ends : (turnAt true rxSize responses rxbuf n).ended = some ended) {fuel : ℕ} (enough : n < fuel) :
    es2Read true rxSize responses fuel 0 rxbuf = (transfersFrom true rxSize responses rxbuf 0 (n + 1), some ended) :=
  es2Read_ended (fun j less => (Nat.zero_add j).symm ▸ turnAt_goesOn (first.before j less))
    ((Nat.zero_add n).symm ▸ ends) enough

theorem transfersFrom_length (rxBuf : Bool) (rxSize : ℕ) (responses : ℕ → RxBytes) (rxbuf : RxBytes) (n count : ℕ) :
    (transfersFrom rxBuf rxSize responses rxbuf n count).length = count := by
  unfold transfersFrom
  rw [List.length_map, List.length_range']

theorem es2Read_stops {fuel : ℕ} {ended : ReadEnd}
    (read : (es2Read true rxSize responses fuel 0 rxbuf).2 = some ended) :
    ∃ n < fuel, First (fun m => Stops (scanned rxSize (responses m) rxbuf) (readSize rxSize)) n := by
  classical
  rcases first_or_none (fun m => Stops (scanned rxSize (responses m) rxbuf) (readSize rxSize)) fuel with stop | none
  · exact stop
  · rw [es2Read_running fun j less => (Nat.zero_add j).symm ▸ turnAt_goesOn (none j less)] at read
    cases read

/-- A read that ends has the answer of the switch. -/
theorem answers_of_ends (ends : Ends rxSize responses rxbuf) : Answers true rxSize responses rxbuf := by
  obtain ⟨n, first, silent | ⟨i, inside, replies⟩⟩ := ends
  · have read := es2Read_first first (turnAt_silent silent) (Nat.lt_succ_self n)
    exact fun _ => ⟨n + 1, _, congrArg Prod.snd read, .inl (by decide : - eio < 0)⟩
  · have read := es2Read_first first (turnAt_replies replies) (Nat.lt_succ_self n)
    refine fun _ => ⟨n + 1, _, congrArg Prod.snd read, .inr ⟨rfl, n, i, ?_, replies.received inside, rfl⟩⟩
    rw [read]
    exact transfersFrom_length _ _ _ _ _ _

theorem ends_of_answers (answers : Answers true rxSize responses rxbuf)
    (quiet : ∃ n, ∀ i < replyLength rxSize, ¬Marker (responses n i)) : Ends rxSize responses rxbuf := by
  obtain ⟨fuel, ended, read, result⟩ := answers quiet
  obtain ⟨n, enough, first⟩ := es2Read_stops read
  refine ⟨n, first, ?_⟩
  rcases first.here with ⟨i, replies⟩ | silent
  · have found := es2Read_first first (turnAt_replies replies) enough
    rw [found] at read result
    obtain rfl := Option.some.inj read
    rcases result with error | ⟨-, last, k, length, began, -⟩
    · exact absurd error (Int.lt_irrefl 0)
    · rw [transfersFrom_length] at length
      obtain rfl := Nat.succ.inj length
      -- The marker that the scan has found is not behind the one in the response.
      have seen : Marker (scanned rxSize (responses n) rxbuf k) :=
        (scanned_received began.inside).symm ▸ began.first.here
      exact .inr ⟨i, Nat.lt_of_le_of_lt (replies.first.le seen) began.inside, replies⟩
  · exact .inl silent

end Termination

/-- Reading a reply ends as it should if every response has an STRR or a NACK, or if the loop reads into a buffer and
the first transfer that stops it has only NUL bytes or begins a reply in its response; and only then. -/
theorem read_reply (rxBuf : Bool) (rxSize : ℕ) (responses : ℕ → RxBytes) (rxbuf : RxBytes) :
    Answers rxBuf rxSize responses rxbuf ↔
      (∀ n, ∃ i < replyLength rxSize, Marker (responses n i)) ∨ rxBuf = true ∧ Ends rxSize responses rxbuf := by
  by_cases quiet : ∃ n, ∀ i < replyLength rxSize, ¬Marker (responses n i)
  · have loud : ¬∀ n, ∃ i < replyLength rxSize, Marker (responses n i) := by
      obtain ⟨n, none⟩ := quiet
      intro all
      obtain ⟨i, inside, marker⟩ := all n
      exact none i inside marker
    rw [or_iff_right loud]
    cases rxBuf with
    | true => exact ⟨fun answers => ⟨rfl, ends_of_answers answers quiet⟩, fun both => answers_of_ends both.2⟩
    | false =>
      -- Without a buffer the first turn returns 0 and copies nothing.
      refine iff_of_false (fun answers => ?_) fun both => Bool.false_ne_true both.1
      obtain ⟨fuel, ended, read, result⟩ := answers quiet
      cases fuel with
      | zero => cases read
      | succ fuel =>
        rw [es2Read_last rfl] at read result
        obtain rfl := Option.some.inj read
        rcases result with error | ⟨-, n, i, -, -, copied⟩
        · exact absurd error (by decide)
        · cases copied
  · refine iff_of_true (fun quietly => absurd quietly quiet) (.inl fun n => ?_)
    by_contra none
    exact quiet ⟨n, fun i inside marker => none ⟨i, inside, marker⟩⟩

/-- The switch sends bytes that are neither NUL nor a marker. -/
def noise : ℕ → RxBytes := fun _ _ => 0x55

/-- The reading of a confirmation of four bytes goes on for ever. -/
theorem read_reply_noise : (∀ fuel, (es2Read true 4 noise fuel 0 fun _ => 0).2 = none) ∧
    ¬Answers true 4 noise fun _ => 0 := by
  have goesOn (n : ℕ) : (turnAt true 4 noise (fun _ => 0) n).ended = none :=
    Option.isNone_iff_eq_none.mp (by decide +kernel : (es2ReadTurn true 4 (fun _ => 0x55) fun _ => 0).ended.isNone = true)
  have runs (fuel : ℕ) : (es2Read true 4 noise fuel 0 fun _ => 0).2 = none := by
    rw [es2Read_running fun j _ => goesOn (0 + j)]
  refine ⟨runs, fun answers => ?_⟩
  obtain ⟨fuel, ended, read, -⟩ := answers ⟨0, fun _ _ => (by decide : ¬Marker 0x55)⟩
  rw [runs] at read
  cases read

end Phabos.Es2
