import Phabos.Construction.Greybus.Receive

namespace Phabos.Greybus
open Library List

/-- The content is a sequence of complete records. -/
inductive Complete : List UInt8 → Prop
  | nil : Complete []
  | record (hdr body rest : List UInt8) (header : hdr.length = recordHeaderSize)
      (whole : body.length = le16 hdr 0) (more : Complete rest) : Complete (hdr ++ body ++ rest)

/-- No record of the content, complete or cut off, has a body above the size of the replay buffer. -/
inductive RecordsFit : List UInt8 → Prop
  | short (tape : List UInt8) (cut : tape.length < recordHeaderSize) : RecordsFit tape
  | truncated (hdr body : List UInt8) (header : hdr.length = recordHeaderSize)
      (part : body.length < le16 hdr 0) (fits : body.length ≤ GREYBUS_MTU) : RecordsFit (hdr ++ body)
  | record (hdr body rest : List UInt8) (header : hdr.length = recordHeaderSize)
      (whole : body.length = le16 hdr 0) (fits : body.length ≤ GREYBUS_MTU) (more : RecordsFit rest) :
      RecordsFit (hdr ++ body ++ rest)

section Parse
variable {tape : List UInt8}

/-- The size in the first header of a tape. -/
def bodySize (tape : List UInt8) : Nat := le16 (tape.take recordHeaderSize) 0

/-- What follows the first header of a tape. -/
def afterHeader (tape : List UInt8) : List UInt8 := tape.drop recordHeaderSize

theorem take_header {hdr rest : List UInt8} (header : hdr.length = recordHeaderSize) :
    (hdr ++ rest).take recordHeaderSize = hdr := by
  rw [← header, take_left]

theorem drop_header {hdr rest : List UInt8} (header : hdr.length = recordHeaderSize) :
    (hdr ++ rest).drop recordHeaderSize = rest := by
  rw [← header, drop_left]

theorem complete_iff :
    Complete tape ↔ tape = [] ∨ recordHeaderSize ≤ tape.length ∧
      bodySize tape ≤ (afterHeader tape).length ∧ Complete ((afterHeader tape).drop (bodySize tape)) := by
  constructor
  · intro complete
    cases complete with
    | nil => exact .inl rfl
    | record hdr body rest header whole more =>
      refine .inr ?_
      unfold bodySize afterHeader
      rw [append_assoc, take_header header, drop_header header, ← whole, drop_left]
      simp only [length_append]
      exact ⟨by omega, by omega, more⟩
  · rintro (rfl | ⟨header, whole, more⟩)
    · exact .nil
    · have parts : tape = tape.take recordHeaderSize ++ (afterHeader tape).take (bodySize tape) ++
          (afterHeader tape).drop (bodySize tape) := by
        rw [append_assoc, take_append_drop]
        exact (take_append_drop _ _).symm
      rw [parts]
      exact .record _ _ _ (length_take_of_le header) (length_take_of_le whole) more

theorem recordsFit_iff :
    RecordsFit tape ↔ tape.length < recordHeaderSize ∨
      ((afterHeader tape).take (bodySize tape)).length ≤ GREYBUS_MTU ∧
        (bodySize tape ≤ (afterHeader tape).length →
          RecordsFit ((afterHeader tape).drop (bodySize tape))) := by
  constructor
  · intro fits
    cases fits with
    | short _ cut => exact .inl cut
    | truncated hdr body header part fits =>
      refine .inr ?_
      unfold bodySize afterHeader
      rw [take_header header, drop_header header, take_of_length_le (Nat.le_of_lt part)]
      exact ⟨fits, fun whole => by omega⟩
    | record hdr body rest header whole fits more =>
      refine .inr ?_
      unfold bodySize afterHeader
      rw [append_assoc, take_header header, drop_header header, ← whole, drop_left,
        take_left]
      exact ⟨fits, fun _ => more⟩
  · intro parsed
    by_cases cut : tape.length < recordHeaderSize
    · exact .short tape cut
    · obtain ⟨fits, more⟩ := parsed.resolve_left cut
      have header : (tape.take recordHeaderSize).length = recordHeaderSize :=
        length_take_of_le (Nat.le_of_not_lt cut)
      by_cases whole : bodySize tape ≤ (afterHeader tape).length
      · have parts : tape = tape.take recordHeaderSize ++ (afterHeader tape).take (bodySize tape) ++
            (afterHeader tape).drop (bodySize tape) := by
          rw [append_assoc, take_append_drop]
          exact (take_append_drop _ _).symm
        have more := more whole
        rw [parts]
        exact .record _ _ _ header (length_take_of_le whole) fits more
      · have parts : tape = tape.take recordHeaderSize ++ afterHeader tape :=
          (take_append_drop _ _).symm
        rw [take_of_length_le (by omega)] at fits
        rw [parts]
        exact .truncated _ _ header (Nat.lt_of_not_le whole) fits

end Parse

section Loop
variable {tape : List UInt8} (fuel : Nat)

theorem gbTapeReplayLoop_short (cut : tape.length < recordHeaderSize) :
    gbTapeReplayLoop (fuel + 1) tape = some ⟨[], false, if tape = [] then 0 else - EIO⟩ := by
  have whole : tape.take recordHeaderSize = tape := take_of_length_le (Nat.le_of_lt cut)
  unfold gbTapeReplayLoop
  dsimp only
  rw [whole]
  by_cases empty : tape = []
  · rw [if_pos (by rw [empty]; rfl), if_pos empty]
  · rw [if_neg (by rwa [length_eq_zero_iff]), if_pos (by omega), if_neg empty]

theorem gbTapeReplayLoop_truncated (header : recordHeaderSize ≤ tape.length)
    (part : (afterHeader tape).length < bodySize tape) :
    gbTapeReplayLoop (fuel + 1) tape =
      some ⟨[], decide (GREYBUS_MTU < (afterHeader tape).length), - EIO⟩ := by
  have length : (tape.take recordHeaderSize).length = recordHeaderSize := length_take_of_le header
  have body : (afterHeader tape).take (bodySize tape) = afterHeader tape :=
    take_of_length_le (Nat.le_of_lt part)
  unfold gbTapeReplayLoop
  dsimp only
  rw [length, if_neg (by decide), if_neg (by simp)]
  change (if bodySize tape ≠ ((afterHeader tape).take (bodySize tape)).length then _ else _) = _
  rw [body, if_pos (by omega)]
  change some (Replay.mk [] (decide (GREYBUS_MTU < ((afterHeader tape).take (bodySize tape)).length)) _) = _
  rw [body]

theorem gbTapeReplayLoop_record (header : recordHeaderSize ≤ tape.length)
    (whole : bodySize tape ≤ (afterHeader tape).length) :
    gbTapeReplayLoop (fuel + 1) tape =
      (gbTapeReplayLoop fuel ((afterHeader tape).drop (bodySize tape))).map fun rest =>
        ⟨⟨le16 (tape.take recordHeaderSize) 2, (afterHeader tape).take (bodySize tape)⟩ :: rest.handed,
          decide (GREYBUS_MTU < bodySize tape) || rest.overrun, rest.retval⟩ := by
  have length : (tape.take recordHeaderSize).length = recordHeaderSize := length_take_of_le header
  have body : ((afterHeader tape).take (bodySize tape)).length = bodySize tape :=
    length_take_of_le whole
  conv_lhs => unfold gbTapeReplayLoop
  dsimp only
  rw [length, if_neg (by decide), if_neg (by simp)]
  change (if bodySize tape ≠ ((afterHeader tape).take (bodySize tape)).length then _ else
    Option.map (fun rest : Replay => Replay.mk _
      (decide (GREYBUS_MTU < ((afterHeader tape).take (bodySize tape)).length) || rest.overrun) _) _) = _
  rw [body, if_neg (by simp)]
  rfl

end Loop

/-- With a step for each byte the loop returns; it reports an incomplete content, and it stays in its
buffer exactly when the records fit. -/
theorem gbTapeReplayLoop_returns (fuel : Nat) (tape : List UInt8) (enough : tape.length < fuel) :
    ∃ replay, gbTapeReplayLoop fuel tape = some replay ∧
      (Complete tape ∧ replay.retval = 0 ∨ ¬ Complete tape ∧ replay.retval = - EIO) ∧
      (replay.overrun = false ↔ RecordsFit tape) := by
  induction fuel generalizing tape with
  | zero => omega
  | succ fuel ih =>
    by_cases cut : tape.length < recordHeaderSize
    · refine ⟨_, gbTapeReplayLoop_short fuel cut, ?_, iff_of_true rfl (.short tape cut)⟩
      by_cases empty : tape = []
      · subst tape
        exact .inl ⟨.nil, rfl⟩
      · refine .inr ⟨?_, if_neg empty⟩
        rw [complete_iff]
        rintro (none | ⟨header, _⟩)
        · exact empty none
        · omega
    have header := Nat.le_of_not_lt cut
    by_cases whole : bodySize tape ≤ (afterHeader tape).length
    · have shorter : ((afterHeader tape).drop (bodySize tape)).length < fuel := by
        unfold afterHeader
        unfold recordHeaderSize at *
        simp only [length_drop]
        omega
      obtain ⟨rest, replayed, result, fits⟩ := ih _ shorter
      refine ⟨_, by rw [gbTapeReplayLoop_record fuel header whole, replayed, Option.map_some], ?_, ?_⟩
      · rw [complete_iff]
        have nonempty : tape ≠ [] := by
          rintro rfl
          exact cut (by decide)
        simp only [nonempty, header, whole, false_or, true_and]
        exact result
      · rw [recordsFit_iff, ← fits, length_take_of_le whole]
        simp only [Bool.or_eq_false_iff, decide_eq_false_iff_not, Nat.not_lt, cut, whole, false_or,
          true_implies]
    · have part := Nat.lt_of_not_le whole
      refine ⟨_, gbTapeReplayLoop_truncated fuel header part, .inr ⟨?_, rfl⟩, ?_⟩
      · rw [complete_iff]
        rintro (rfl | ⟨_, inside, _⟩)
        · exact cut (by decide)
        · exact whole inside
      · rw [recordsFit_iff, take_of_length_le (Nat.le_of_lt part)]
        simp only [decide_eq_false_iff_not, Nat.not_lt, cut, whole, false_or, false_implies, and_true]

section RoundTrip
variable {message : Message} {rest : List UInt8}

theorem length_gbTapeRecord :
    (gbTapeRecord message).length = recordHeaderSize + message.data.length := by
  unfold gbTapeRecord
  simp only [length_append, length_le16Bytes]
  rfl

theorem take_gbTapeRecord :
    (gbTapeRecord message ++ rest).take recordHeaderSize =
      le16Bytes message.data.length ++ le16Bytes message.cport := by
  unfold gbTapeRecord
  rw [append_assoc, take_header rfl]

theorem afterHeader_gbTapeRecord : afterHeader (gbTapeRecord message ++ rest) = message.data ++ rest := by
  unfold gbTapeRecord afterHeader
  rw [append_assoc, drop_header rfl]

theorem bodySize_gbTapeRecord :
    bodySize (gbTapeRecord message ++ rest) = message.data.length % 65536 := by
  unfold bodySize
  rw [take_gbTapeRecord]
  exact le16_le16Bytes [] _ _

theorem gbTapeReplayLoop_gbTapeRecord (fuel : Nat) :
    gbTapeReplayLoop (fuel + 1) (gbTapeRecord message ++ rest) =
      (gbTapeReplayLoop fuel ((message.data ++ rest).drop (message.data.length % 65536))).map
        fun later => ⟨⟨message.cport % 65536,
          (message.data ++ rest).take (message.data.length % 65536)⟩ :: later.handed,
          decide (GREYBUS_MTU < message.data.length % 65536) || later.overrun, later.retval⟩ := by
  have bounded : message.data.length % 65536 ≤ message.data.length := Nat.mod_le _ _
  have cport := le16_le16Bytes (le16Bytes message.data.length) [] message.cport
  rw [append_nil] at cport
  change le16 (le16Bytes message.data.length ++ le16Bytes message.cport) 2 = _ at cport
  rw [gbTapeReplayLoop_record, take_gbTapeRecord, bodySize_gbTapeRecord, afterHeader_gbTapeRecord, cport]
  · rw [length_append, length_gbTapeRecord]
    omega
  · rw [bodySize_gbTapeRecord, afterHeader_gbTapeRecord, length_append]
    omega

/-- The fields of a record hold the message, and so does the replay buffer. -/
def FitsRecord (message : Message) : Prop :=
  message.data.length ≤ GREYBUS_MTU ∧ message.cport < 65536

/-- The replay hands over exactly the given messages, without leaving its buffer, and succeeds. -/
def ReplaysExactly (tape : List UInt8) (messages : List Message) : Prop :=
  ∃ replay, gbTapeReplay tape = some replay ∧ replay.handed = messages ∧ replay.overrun = false ∧
    replay.retval = 0

/-- The records of the messages are replayed as those messages exactly when each one fits its
record. -/
theorem replaysExactly_iff (messages : List Message) (fuel : Nat)
    (enough : (messages.flatMap gbTapeRecord).length < fuel) :
    (∃ replay, gbTapeReplayLoop fuel (messages.flatMap gbTapeRecord) = some replay ∧
      replay.handed = messages ∧ replay.overrun = false ∧ replay.retval = 0) ↔
      ∀ message ∈ messages, FitsRecord message := by
  induction messages generalizing fuel with
  | nil =>
    obtain ⟨fuel, rfl⟩ : ∃ more, fuel = more + 1 := ⟨fuel - 1, by omega⟩
    refine iff_of_true ⟨⟨[], false, 0⟩, ?_, rfl, rfl, rfl⟩ (fun _ inside => absurd inside (by simp))
    rw [flatMap_nil, gbTapeReplayLoop_short fuel (by decide), if_pos rfl]
  | cons message messages ih =>
    obtain ⟨fuel, rfl⟩ : ∃ more, fuel = more + 1 := ⟨fuel - 1, by omega⟩
    rw [flatMap_cons] at enough ⊢
    have shorter : (messages.flatMap gbTapeRecord).length < fuel := by
      rw [length_append, length_gbTapeRecord] at enough
      unfold recordHeaderSize at enough
      omega
    rw [gbTapeReplayLoop_gbTapeRecord, forall_mem_cons, ← ih fuel shorter]
    constructor
    · rintro ⟨replay, replayed, handed, kept, success⟩
      obtain ⟨later, rest, rfl⟩ := Option.map_eq_some_iff.mp replayed
      obtain ⟨same, others⟩ := cons.inj handed
      obtain ⟨first, unspilled⟩ := Bool.or_eq_false_iff.mp kept
      have cport := congrArg Message.cport same
      have length := congrArg length (congrArg Message.data same)
      dsimp only at cport
      rw [length_take_of_le (by rw [length_append]; exact Nat.le_add_right_of_le (Nat.mod_le _ _))]
        at length
      rw [length] at first rest
      rw [drop_left] at rest
      refine ⟨⟨by simpa using first, ?_⟩, later, rest, others, unspilled, success⟩
      rw [← cport]
      exact Nat.mod_lt _ (by decide)
    · rintro ⟨⟨small, cport⟩, later, rest, rfl, unspilled, success⟩
      have whole : message.data.length % 65536 = message.data.length :=
        Nat.mod_eq_of_lt (lt_of_le_of_lt small (by decide))
      rw [whole, drop_left, rest, take_left, Nat.mod_eq_of_lt cport]
      exact ⟨_, rfl, rfl, by simp [Nat.not_lt.mpr small, unspilled], success⟩

/-- The tape gets a record for each message that the handler accepts, in order. -/
theorem recordMessage_foldl (cportMap : CportMap) (tape : List UInt8) (messages : List Message) :
    messages.foldl (recordMessage cportMap) tape =
      tape ++ (messages.filter (rxAccepts cportMap)).flatMap gbTapeRecord := by
  induction messages generalizing tape with
  | nil => simp
  | cons message messages ih =>
    rw [foldl_cons, ih]
    unfold recordMessage
    by_cases accepted : rxAccepts cportMap message = true
    · simp [accepted]
    · simp [accepted]

end RoundTrip

/-- The replay returns, never puts more than its buffer holds into it, and reports an incomplete tape. -/
def ReplayContained (tape : List UInt8) : Prop :=
  ∃ replay, gbTapeReplay tape = some replay ∧ replay.overrun = false ∧
    (Complete tape → replay.retval = 0) ∧ (¬ Complete tape → replay.retval = - EIO)

/-- A replay stays on the tape exactly when every record fits. -/
theorem replayContained_iff (tape : List UInt8) : ReplayContained tape ↔ RecordsFit tape := by
  obtain ⟨replay, replayed, result, fits⟩ := gbTapeReplayLoop_returns (tape.length + 1) tape (by omega)
  rw [← fits]
  constructor
  · rintro ⟨same, returned, kept, _⟩
    obtain rfl := Option.some.inj (replayed.symm.trans returned)
    exact kept
  · intro kept
    refine ⟨replay, replayed, kept, fun complete => ?_, fun incomplete => ?_⟩
    · rcases result with ⟨_, success⟩ | ⟨incomplete, _⟩
      · exact success
      · contradiction
    · rcases result with ⟨complete, _⟩ | ⟨_, failure⟩
      · contradiction
      · exact failure

/-- A recorded tape is replayed as it was recorded exactly when each accepted message fits its record,
and the replay of a content is contained exactly when its records fit. -/
theorem gb_tape_round_trip (cportMap : CportMap) (messages : List Message) (tape : List UInt8) :
    (ReplaysExactly (messages.foldl (recordMessage cportMap) [])
        (messages.filter (rxAccepts cportMap)) ↔
      ∀ message ∈ messages, rxAccepts cportMap message = true → FitsRecord message) ∧
      (ReplayContained tape ↔ RecordsFit tape) := by
  refine ⟨?_, replayContained_iff tape⟩
  unfold ReplaysExactly gbTapeReplay
  rw [recordMessage_foldl, List.nil_append, replaysExactly_iff _ _ (Nat.lt_succ_self _)]
  simp only [List.mem_filter, and_imp]

/-- A driver with one handler on every cport. -/
def plainCport : CportMap := fun _ => some ⟨some [⟨1, .ret 0, false⟩]⟩

/-- A well-formed message of the given size. -/
def paddedMessage (size : Nat) : Message := ⟨0, le16Bytes size ++ List.replicate (size - 2) 0⟩

theorem length_paddedMessage (size : Nat) (large : 2 ≤ size) : (paddedMessage size).data.length = size := by
  unfold paddedMessage
  rw [length_append, length_le16Bytes, length_replicate]
  omega

theorem rxAccepts_paddedMessage (size : Nat) (large : hdrSize ≤ size) (small : size < 65536) :
    rxAccepts plainCport (paddedMessage size) = true := by
  have length : (paddedMessage size).data.length = size :=
    length_paddedMessage size (Nat.le_trans (by decide) large)
  have field : le16 (paddedMessage size).data 0 = size :=
    (le16_le16Bytes [] _ _).trans (Nat.mod_eq_of_lt small)
  unfold rxAccepts plainCport
  simp [length, field, large]

theorem overruns_of_large {cportMap : CportMap} {message : Message} (accepted : rxAccepts cportMap message = true)
    (large : GREYBUS_MTU < message.data.length) (small : message.data.length < 65536) :
    ¬ ReplaysExactly ([message].foldl (recordMessage cportMap) []) [message] ∧
      ¬ ReplayContained (gbTapeRecord message) := by
  constructor
  · intro replays
    unfold ReplaysExactly gbTapeReplay at replays
    rw [foldl_cons, foldl_nil, recordMessage, if_pos accepted, nil_append,
      ← flatMap_singleton gbTapeRecord message, replaysExactly_iff _ _ (Nat.lt_succ_self _)]
      at replays
    have fits := (replays message (mem_singleton_self message)).1
    omega
  · intro contained
    rw [replayContained_iff, ← append_nil (gbTapeRecord message), recordsFit_iff,
      bodySize_gbTapeRecord, afterHeader_gbTapeRecord, append_nil, append_nil,
      length_gbTapeRecord, length_take, Nat.mod_eq_of_lt small, Nat.min_self] at contained
    rcases contained with cut | ⟨fits, _⟩
    · omega
    · omega

/-- A message of one byte more than the buffer holds is accepted, and its record overruns the buffer. -/
theorem gb_tape_replay_overruns :
    rxAccepts plainCport (paddedMessage 2049) = true ∧
      ¬ ReplaysExactly ([paddedMessage 2049].foldl (recordMessage plainCport) []) [paddedMessage 2049] ∧
      ¬ ReplayContained (gbTapeRecord (paddedMessage 2049)) := by
  have accepted := rxAccepts_paddedMessage 2049 (by decide) (by decide)
  have length := length_paddedMessage 2049 (by decide)
  exact ⟨accepted, overruns_of_large accepted (by rw [length]; decide) (by rw [length]; decide)⟩

end Phabos.Greybus
