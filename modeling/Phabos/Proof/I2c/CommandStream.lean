import Mathlib.Data.Nat.Bitwise
import Phabos.Construction.I2c.Dw
import Phabos.Library.Run
import Phabos.Library.Segments

namespace Phabos.DwI2c
open Library I2c List Option

/-- The command for a byte of a message -/
def command (msgs : List I2cMsg) (index : ℕ) (msg : I2cMsg) (offset : ℕ) : BitVec 32 :=
  ((if index + 1 = msgs.length ∧ offset + 1 = msg.buffer.length then cmdStop else 0) |||
    (if 0 < index ∧ offset = 0 then cmdRestart else 0)) |||
      if msg.read then cmdRead else BitVec.ofNat 32 (msg.buffer[offset]?.getD 0).toNat

/-- The commands of each message -/
def commands (msgs : List I2cMsg) : List (List (BitVec 32)) :=
  msgs.mapIdx fun index msg => (List.range msg.buffer.length).map (command msgs index msg)

/-- The bytes that each message reads -/
def positions (msgs : List I2cMsg) : List (List Pointer) :=
  msgs.mapIdx fun index msg => if msg.read then (List.range msg.buffer.length).map (Pointer.mk index) else []

/-- The read commands that are not answered yet and the bytes in the receive FIFO -/
def Stream.outstanding (s : Stream) : ℕ := s.txFifo.countP isReadCommand + s.unanswered + s.rxFifo.length

/-- The commands written so far are those of the messages in order, and all of them once the last message is done. The
receive FIFO has room for every answer, and the answers went to the bytes that are read, in order, or are still in
the FIFO. -/
structure Streamed (msgs : List I2cMsg) (s : Stream) : Prop where
  sent : s.written <+: (commands msgs).flatten
  done : s.g.txIndex = msgs.length → s.written = (commands msgs).flatten
  room : s.outstanding ≤ fifoDepth
  stored : s.stored.map Prod.fst <+: (positions msgs).flatten
  answered : s.stored.map Prod.snd ++ s.rxFifo = s.answers

/-- A turn that starts a later message writes a command; and the test of `rx_avail` stops the turn at an equality, or it
has no more read commands to write than the receive FIFO has room for. -/
structure Room (g : Globals) (l : Transfer) (msg : I2cMsg) (txAvail rxAvail : ℕ) : Prop where
  restart : g.status &&& DW_I2C_STATUS_WRITE_IN_PROGRESS = 0 → 0 < g.txIndex →
    0 < txAvail ∧ 0 < rxAvail ∧ (msg.read = true → rxAvail ≠ g.rxOutstanding.toNat)
  answers : msg.read = true →
    g.rxOutstanding.toNat ≤ rxAvail ∧ 2 ∣ rxAvail - g.rxOutstanding.toNat ∨
      g.rxOutstanding.toNat + min (l.init g msg).length (min txAvail rxAvail) ≤ fifoDepth

/-- The turns of `tsb_i2c_transfer_msg` have room. -/
def Steady (s : Stream) : Event → Prop
  | .handler =>
    match s.place with
    | .filling l txflr => ∀ msg ∈ s.g.msgs[s.g.txIndex]?,
        Room s.g l msg (fifoDepth - txflr) (fifoDepth - s.rxFifo.length)
    | _ => True
  | _ => True

instance (g : Globals) (l : Transfer) (msg : I2cMsg) (txAvail rxAvail : ℕ) :
    Decidable (Room g l msg txAvail rxAvail) :=
  decidable_of_iff (_ ∧ _) ⟨fun parts => ⟨parts.1, parts.2⟩, fun room => ⟨room.restart, room.answers⟩⟩

instance (s : Stream) : ∀ event, Decidable (Steady s event)
  | .handler =>
    match place : s.place with
    | .filling l txflr => decidable_of_iff (∀ msg ∈ s.g.msgs[s.g.txIndex]?,
        Room s.g l msg (fifoDepth - txflr) (fifoDepth - s.rxFifo.length)) (by rw [Steady, place])
    | .away | .reading _ | .transferring _ => isTrue (by rw [Steady, place]; trivial)
  | .interrupt _ | .take | .answer _ => isTrue trivial

section Loops
variable {msgs : List I2cMsg} {index : ℕ} {msg : I2cMsg}

theorem commands_get (here : msgs[index]? = some msg) :
    (commands msgs)[index]? = some ((range msg.buffer.length).map (command msgs index msg)) := by
  unfold commands
  rw [List.getElem?_mapIdx, here, map_some]

theorem positions_get (here : msgs[index]? = some msg) :
    (positions msgs)[index]? =
      some (if msg.read then (range msg.buffer.length).map (Pointer.mk index) else []) := by
  unfold positions
  rw [List.getElem?_mapIdx, here, map_some]

theorem drop_range {α : Type*} (f : ℕ → α) {offset length : ℕ} (inside : offset < length) (more : ℕ) :
    (((range length).map f).drop offset).take (more + 1) =
      f offset :: (((range length).map f).drop (offset + 1)).take more := by
  have bound : offset < ((range length).map f).length := by simpa using inside
  rw [List.drop_eq_getElem_cons bound, List.take_succ_cons, List.getElem_map, List.getElem_range]

theorem fillLoop_written (here : msgs[index]? = some msg) (length offset : ℕ) (l : Fill)
    (whole : offset + length = msg.buffer.length) (restart : l.needRestart = decide (0 < index ∧ offset = 0))
    (buffer : l.buffer = ⟨index, if msg.read then 0 else offset⟩) :
    ∃ count left next, fillLoop msgs msg.read (decide (index = msgs.length - 1)) length l = (left, next) ∧
      left + count = length ∧
      next.written = l.written ++
        (((range msg.buffer.length).map (command msgs index msg)).drop offset).take count ∧
      next.buffer = ⟨index, if msg.read then 0 else offset + count⟩ ∧
      next.rxOutstanding = l.rxOutstanding + (if msg.read then BitVec.ofNat 32 count else 0) ∧
      (0 < count ∨ l.needRestart = false → next.needRestart = false) := by
  induction length generalizing offset l with
  | zero =>
    refine ⟨0, 0, l, rfl, rfl, ?_, buffer, ?_, fun kept => kept.resolve_left (Nat.lt_irrefl 0)⟩
    · rw [take_zero, append_nil]
    · split <;> simp
  | succ length ih =>
    have stop : index = msgs.length - 1 ∧ length + 1 = 1 ↔
        index + 1 = msgs.length ∧ offset + 1 = msg.buffer.length := by
      obtain ⟨inside, -⟩ := List.getElem?_eq_some_iff.mp here
      omega
    have nothing : l.written = l.written ++
        (((range msg.buffer.length).map (command msgs index msg)).drop offset).take 0 := by
      rw [take_zero, append_nil]
    have same : l.rxOutstanding = l.rxOutstanding + (if msg.read then BitVec.ofNat 32 0 else 0) := by
      split <;> simp
    -- One more command is written, and the loop goes on.
    have more (next : Fill) (data : BitVec 32)
        (same : (if msg.read then cmdRead else BitVec.ofNat 32 (msg.buffer[offset]?.getD 0).toNat) = data)
        (written : next.written = l.written ++ [((if decide (index = msgs.length - 1) = true ∧ length + 1 = 1 then
          cmdStop else 0) ||| if l.needRestart then cmdRestart else 0) ||| data])
        (fresh : next.needRestart = false) (moved : next.buffer = ⟨index, if msg.read then 0 else offset + 1⟩)
        (asked : next.rxOutstanding = l.rxOutstanding + if msg.read then 1 else 0) :
        ∃ count left last, fillLoop msgs msg.read (decide (index = msgs.length - 1)) length next = (left, last) ∧
          left + count = length + 1 ∧
          last.written = l.written ++
            (((range msg.buffer.length).map (command msgs index msg)).drop offset).take count ∧
          last.buffer = ⟨index, if msg.read then 0 else offset + count⟩ ∧
          last.rxOutstanding = l.rxOutstanding + (if msg.read then BitVec.ofNat 32 count else 0) ∧
          (0 < count ∨ l.needRestart = false → last.needRestart = false) := by
      have value : ((if decide (index = msgs.length - 1) = true ∧ length + 1 = 1 then cmdStop else 0) |||
          if l.needRestart then cmdRestart else 0) ||| data = command msgs index msg offset := by
        unfold command
        rw [same, restart]
        simp only [decide_eq_true_eq, stop]
      obtain ⟨count, left, last, ran, total, commands, pointer, reads, after⟩ :=
        ih (offset + 1) next (by omega) (by rw [fresh]; simp) moved
      refine ⟨count + 1, left, last, ran, by omega, ?_, ?_, ?_, fun _ => after (Or.inr fresh)⟩
      · rw [commands, written, value, drop_range _ (by omega), append_assoc, List.singleton_append]
      · rw [pointer, Nat.add_right_comm, Nat.add_assoc]
      · rw [reads, asked]
        split
        · rw [BitVec.ofNat_add, BitVec.add_assoc, BitVec.add_comm 1]
          rfl
        · simp
    by_cases room : 0 < l.txAvail ∧ 0 < l.rxAvail
    · rw [fillLoop, if_pos room]
      by_cases reads : msg.read = true
      · simp only [if_pos reads] at buffer more ⊢
        split
        · exact ⟨0, length + 1, _, rfl, rfl, nothing, buffer, by simp, fun _ => rfl⟩
        · exact more _ cmdRead rfl rfl rfl buffer rfl
      · simp only [if_neg reads] at buffer more ⊢
        refine more _ (BitVec.ofNat 32 (l.buffer.byte msgs).toNat) ?_ rfl rfl ?_ (add_zero _).symm
        · rw [buffer, Pointer.byte, here]
          rfl
        · rw [buffer]
          rfl
    · rw [fillLoop, if_neg room]
      exact ⟨0, length + 1, l, rfl, rfl, nothing, buffer, same, fun kept => kept.resolve_left (Nat.lt_irrefl 0)⟩

theorem difference_zero_iff {rxAvail : Int} {outstanding : ℕ} (positive : 0 ≤ rxAvail)
    (small : outstanding + rxAvail ≤ 16) :
    BitVec.ofInt 32 rxAvail - BitVec.ofNat 32 outstanding = 0 ↔ rxAvail = outstanding := by
  obtain ⟨count, rfl⟩ := Int.eq_ofNat_of_zero_le positive
  rw [BitVec.ofInt_natCast, sub_eq_zero, ← BitVec.toNat_inj, BitVec.toNat_ofNat, BitVec.toNat_ofNat]
  omega

theorem fillLoop_count (read last : Bool) (length outstanding : ℕ) (l : Fill) (tx : 0 ≤ l.txAvail) (rx : 0 ≤ l.rxAvail)
    (small : outstanding + l.rxAvail ≤ 16) (known : l.rxOutstanding = BitVec.ofNat 32 outstanding) :
    ∃ count left next, fillLoop msgs read last length l = (left, next) ∧ left + count = length ∧
      (count : Int) ≤ l.txAvail ∧
      (read = true → (count : Int) ≤ l.rxAvail ∧
        (outstanding ≤ l.rxAvail → 2 ∣ l.rxAvail - outstanding → 2 * count ≤ l.rxAvail - outstanding)) ∧
      (0 < length → 0 < l.txAvail → 0 < l.rxAvail → (read = true → l.rxAvail ≠ outstanding) → 0 < count) := by
  induction length generalizing outstanding l with
  | zero => exact ⟨0, 0, l, rfl, rfl, tx, fun _ => ⟨rx, fun _ _ => by omega⟩, fun some => absurd some (by decide)⟩
  | succ length ih =>
    by_cases room : 0 < l.txAvail ∧ 0 < l.rxAvail
    · rw [fillLoop, if_pos room]
      cases read with
      | true =>
        simp only [if_true]
        have equal := difference_zero_iff rx small
        rw [← known] at equal
        split
        · rename_i zero
          refine ⟨0, length + 1, _, rfl, rfl, tx, fun _ => ⟨rx, fun _ _ => ?_⟩, fun _ _ _ differs => ?_⟩
          · omega
          · exact absurd (equal.mp zero) (differs trivial)
        · rename_i differs
          rw [equal] at differs
          obtain ⟨count, left, next, ran, total, most, reads, -⟩ := ih (outstanding + 1) { l with
            needRestart := false
            txAvail := l.txAvail - 1
            rxAvail := l.rxAvail - 1
            rxOutstanding := l.rxOutstanding + 1
            written := _ } (by dsimp only; omega) (by dsimp only; omega) (by dsimp only; omega)
              (by dsimp only; rw [known, BitVec.ofNat_add]; rfl)
          dsimp only at most reads
          refine ⟨count + 1, left, next, ran, by omega, by omega, fun _ => ⟨?_, fun low even => ?_⟩,
            fun _ _ _ _ => Nat.succ_pos count⟩
          · have bound := (reads rfl).1
            omega
          · have bound := (reads rfl).2 (by omega) (by omega)
            omega
      | false =>
        simp only [Bool.false_eq_true, if_false]
        obtain ⟨count, left, next, ran, total, most, -⟩ := ih outstanding { l with
          buffer := l.buffer.next
          needRestart := false
          txAvail := l.txAvail - 1
          written := _ } (by dsimp only; omega) rx small known
        dsimp only at most
        exact ⟨count + 1, left, next, ran, by omega, by omega, nofun, fun _ _ _ _ => Nat.succ_pos count⟩
    · rw [fillLoop, if_neg room]
      refine ⟨0, length + 1, l, rfl, rfl, tx, fun _ => ⟨rx, fun _ _ => by omega⟩, fun _ txs rxs => ?_⟩
      exact absurd ⟨txs, rxs⟩ room

theorem readLoop_stored (index length offset : ℕ) (rxFifo : List UInt8) {size : ℕ} (whole : offset + length = size) :
    ∃ count left fifo stored, readLoop length ⟨index, offset⟩ rxFifo = (left, ⟨index, offset + count⟩, fifo, stored) ∧
      left + count = length ∧ stored.length = count ∧
      stored.map Prod.fst = (((range size).map (Pointer.mk index)).drop offset).take count ∧
      stored.map Prod.snd ++ fifo = rxFifo := by
  induction rxFifo generalizing length offset with
  | nil =>
    refine ⟨0, length, [], [], ?_, rfl, rfl, (take_zero).symm, rfl⟩
    cases length <;> rfl
  | cons byte rest ih =>
    cases length with
    | zero => exact ⟨0, 0, byte :: rest, [], rfl, rfl, rfl, (take_zero).symm, rfl⟩
    | succ length =>
      obtain ⟨count, left, fifo, stored, ran, total, number, places, bytes⟩ := ih length (offset + 1) (by omega)
      refine ⟨count + 1, left, fifo, (⟨index, offset⟩, byte) :: stored, ?_, by omega, by rw [length_cons, number],
        ?_, ?_⟩
      · rw [readLoop]
        simp only [Pointer.next, ran]
        rw [Nat.add_right_comm, Nat.add_assoc]
      · rw [map_cons, places, drop_range _ (by omega)]
      · rw [map_cons, List.cons_append, bytes]

end Loops

section Status
variable {bit other : BitVec 32}

theorem set_bit (status : BitVec 32) (some : bit ≠ 0) : (status ||| bit) &&& bit ≠ 0 := by
  rw [BitVec.and_or_distrib_right, BitVec.and_self]
  exact fun zero => some (BitVec.or_eq_zero_iff.mp zero).2

theorem clear_bit (status bit : BitVec 32) : (status &&& ~~~ bit) &&& bit = 0 := by
  rw [BitVec.and_assoc, BitVec.and_comm (~~~ bit), BitVec.and_not_self]
  exact BitVec.and_zero

theorem set_other (status : BitVec 32) (apart : bit &&& other = 0) : (status ||| bit) &&& other = status &&& other := by
  rw [BitVec.and_or_distrib_right, apart]
  exact BitVec.or_zero

theorem clear_other (status : BitVec 32) (apart : ~~~ bit &&& other = other) :
    (status &&& ~~~ bit) &&& other = status &&& other := by
  rw [BitVec.and_assoc, apart]

end Status

theorem byte_apart (byte : UInt8) : BitVec.ofNat 32 byte.toNat &&& cmdRead = 0 := by
  apply BitVec.eq_of_toNat_eq
  have small : byte.toNat < 2 ^ 8 := byte.toNat_lt
  change byte.toNat % 2 ^ 32 &&& 2 ^ 8 = 0
  rw [Nat.mod_eq_of_lt (small.trans (by decide)), Nat.and_two_pow, Nat.testBit_lt_two_pow small]
  rfl

theorem isReadCommand_command (msgs : List I2cMsg) (index : ℕ) (msg : I2cMsg) (offset : ℕ) :
    isReadCommand (command msgs index msg offset) = msg.read := by
  have flags : ((if index + 1 = msgs.length ∧ offset + 1 = msg.buffer.length then cmdStop else 0) |||
      (if 0 < index ∧ offset = 0 then cmdRestart else 0)) &&& cmdRead = 0 := by
    split <;> split <;> decide
  unfold isReadCommand command
  rw [BitVec.and_or_distrib_right, flags]
  cases reads : msg.read with
  | true =>
    rw [if_pos rfl]
    rfl
  | false =>
    rw [if_neg Bool.false_ne_true, byte_apart]
    rfl

theorem countP_commands (msgs : List I2cMsg) (index : ℕ) (msg : I2cMsg) (offset count : ℕ)
    (inside : offset + count ≤ msg.buffer.length) :
    ((((range msg.buffer.length).map (command msgs index msg)).drop offset).take count).countP isReadCommand =
      if msg.read then count else 0 := by
  cases reads : msg.read with
  | true =>
    rw [List.countP_eq_length.mpr ?_]
    · simp
      omega
    · intro cmd there
      obtain ⟨place, -, rfl⟩ := mem_map.mp (mem_of_mem_drop (mem_of_mem_take there))
      rw [isReadCommand_command, reads]
  | false =>
    rw [List.countP_eq_zero.mpr ?_]
    · rfl
    · intro cmd there
      obtain ⟨place, -, rfl⟩ := mem_map.mp (mem_of_mem_drop (mem_of_mem_take there))
      rw [isReadCommand_command, reads]
      exact Bool.false_ne_true

/-- How far the commands of the messages are written -/
inductive Sent (msgs : List I2cMsg) (g : Globals) (written : List (BitVec 32)) : Prop where
  | between (free : g.status &&& DW_I2C_STATUS_WRITE_IN_PROGRESS = 0)
      (all : written = reached (commands msgs) g.txIndex 0)
  | within (msg : I2cMsg) (offset : ℕ) (busy : g.status &&& DW_I2C_STATUS_WRITE_IN_PROGRESS ≠ 0)
      (here : msgs[g.txIndex]? = some msg) (whole : offset + g.txLength = msg.buffer.length) (left : 0 < g.txLength)
      (begun : 0 < g.txIndex → 0 < offset) (buffer : g.txBuffer = ⟨g.txIndex, if msg.read then 0 else offset⟩)
      (all : written = reached (commands msgs) g.txIndex offset)

/-- How far the answers are stored -/
inductive Received (msgs : List I2cMsg) (g : Globals) (places : List Pointer) : Prop where
  | between (free : g.status &&& DW_I2C_STATUS_READ_IN_PROGRESS = 0)
      (all : places = reached (positions msgs) g.rxIndex 0)
  | within (msg : I2cMsg) (offset : ℕ) (busy : g.status &&& DW_I2C_STATUS_READ_IN_PROGRESS ≠ 0)
      (here : msgs[g.rxIndex]? = some msg) (reads : msg.read = true)
      (whole : offset + g.rxLength = msg.buffer.length) (buffer : g.rxBuffer = ⟨g.rxIndex, offset⟩)
      (all : places = reached (positions msgs) g.rxIndex offset)

/-- The locals of `tsb_i2c_transfer_msg` between two turns -/
structure Local (g : Globals) (l : Transfer) : Prop where
  addr : ∀ msg ∈ g.msgs[g.txIndex]?, msg.addr = l.addr
  saved : g.status &&& DW_I2C_STATUS_WRITE_IN_PROGRESS ≠ 0 → l.buffer = g.txBuffer ∧ l.length = g.txLength
  fresh : g.status &&& DW_I2C_STATUS_WRITE_IN_PROGRESS ≠ 0 ∨ g.txIndex = 0 → l.needRestart = false

/-- What a turn of `tsb_i2c_transfer_msg` does -/
structure Turned (msgs : List I2cMsg) (g : Globals) (written : List (BitVec 32)) (outstanding txAvail : ℕ)
    (turn : List (BitVec 32) × Globals × Option Transfer) : Prop where
  sent : Sent msgs turn.2.1 (written ++ turn.1)
  locals : ∀ l ∈ turn.2.2, Local turn.2.1 l
  same : turn.2.1.msgs = g.msgs
  received : ∀ places, Received msgs g places → Received msgs turn.2.1 places
  asked : turn.2.1.rxOutstanding = BitVec.ofNat 32 (outstanding + turn.1.countP isReadCommand)
  bounded : outstanding + turn.1.countP isReadCommand ≤ fifoDepth
  few : turn.1.length ≤ txAvail

section Turn
variable {msgs : List I2cMsg} {g : Globals} {l : Transfer} {written : List (BitVec 32)}

theorem Sent.begins (sent : Sent msgs g written) (locals : Local g l) {msg : I2cMsg}
    (here : msgs[g.txIndex]? = some msg) (some : msg.buffer.length ≠ 0) :
    ∃ offset, written = reached (commands msgs) g.txIndex offset ∧
      offset + (l.init g msg).length = msg.buffer.length ∧ 0 < (l.init g msg).length ∧
      (l.init g msg).needRestart = decide (0 < g.txIndex ∧ offset = 0) ∧
      (l.init g msg).buffer = ⟨g.txIndex, if msg.read then 0 else offset⟩ ∧
      (0 < g.txIndex → offset = 0 → g.status &&& DW_I2C_STATUS_WRITE_IN_PROGRESS = 0) ∧
      (l.init g msg).addr = l.addr := by
  cases sent with
  | between free all =>
    have restart : (l.needRestart || decide (0 < g.txIndex)) = decide (0 < g.txIndex) := by
      by_cases first : g.txIndex = 0
      · rw [locals.fresh (Or.inr first), Bool.false_or]
      · rw [decide_eq_true (Nat.pos_of_ne_zero first), Bool.or_true]
    unfold Transfer.init
    rw [if_pos free]
    refine ⟨0, all, Nat.zero_add _, Nat.pos_of_ne_zero some, ?_, ?_, fun _ _ => free, rfl⟩
    · simp [restart]
    · split <;> rfl
  | within other offset busy there whole left begun buffer all =>
    obtain rfl := Option.some.inj (there.symm.trans here)
    obtain ⟨pointer, length⟩ := locals.saved busy
    unfold Transfer.init
    rw [if_neg busy]
    refine ⟨offset, all, length ▸ whole, length ▸ left, ?_, pointer.trans buffer, fun later zero => ?_, rfl⟩
    · rw [locals.fresh (Or.inl busy)]
      refine (decide_eq_false fun both => ?_).symm
      exact absurd both.2 (begun both.1).ne'
    · exact absurd zero (begun later).ne'

theorem Received.frame {places : List Pointer} (received : Received msgs g places) {g' : Globals}
    (index : g'.rxIndex = g.rxIndex) (length : g'.rxLength = g.rxLength) (buffer : g'.rxBuffer = g.rxBuffer)
    (status : g'.status &&& DW_I2C_STATUS_READ_IN_PROGRESS = g.status &&& DW_I2C_STATUS_READ_IN_PROGRESS) :
    Received msgs g' places := by
  cases received with
  | between free all => exact .between (status.trans free) (index ▸ all)
  | within msg offset busy here reads whole pointer all =>
    exact .within msg offset (status ▸ busy) (index ▸ here) reads (length ▸ whole)
      (by rw [buffer, index, pointer]) (index ▸ all)

theorem Local.start (g : Globals) : Local g g.transferMsg where
  addr msg here := by
    unfold Globals.transferMsg
    rw [Option.mem_def.mp here]
    rfl
  saved _ := ⟨rfl, rfl⟩
  fresh _ := rfl

theorem transferTurn_turned (same : g.msgs = msgs) (lengths : ∀ msg ∈ msgs, msg.buffer.length ≠ 0)
    (addrs : ∀ msg ∈ msgs, ∀ other ∈ msgs, msg.addr = other.addr) (sent : Sent msgs g written) (locals : Local g l)
    {outstanding txflr rxflr : ℕ} (known : g.rxOutstanding = BitVec.ofNat 32 outstanding)
    (bounded : outstanding ≤ fifoDepth) (tx : txflr ≤ fifoDepth) (rx : rxflr ≤ outstanding)
    (room : ∀ msg ∈ g.msgs[g.txIndex]?, Room g l msg (fifoDepth - txflr) (fifoDepth - rxflr)) :
    Turned msgs g written outstanding (fifoDepth - txflr) (transferTurn g l txflr rxflr) := by
  subst same
  unfold transferTurn
  cases here : g.msgs[g.txIndex]? with
  | none => exact ⟨by rw [append_nil]; exact sent, nofun, rfl, fun _ => id, known, bounded, Nat.zero_le _⟩
  | some msg =>
    have member := mem_of_getElem? here
    obtain ⟨offset, all, whole, left, restart, buffer, free, addr⟩ := sent.begins locals here (lengths msg member)
    have own := locals.addr msg here
    have roomy := room msg here
    have exact' : g.rxOutstanding.toNat = outstanding := by
      rw [known, BitVec.toNat_ofNat]
      unfold fifoDepth at bounded
      omega
    simp only [ne_eq, own, not_true_eq_false, if_false, if_neg (lengths msg member)]
    obtain ⟨count, left', fill, ran, total, commands, pointer, reads, fresh⟩ := fillLoop_written here
      (l.init g msg).length offset ⟨(l.init g msg).buffer, (l.init g msg).needRestart, DW_I2C_TX_FIFO_DEPTH - txflr,
        DW_I2C_RX_FIFO_DEPTH - rxflr, g.rxOutstanding, []⟩ whole restart buffer
    unfold fifoDepth at *
    obtain ⟨number, _, _, again, totalAgain, few, answers, some⟩ := fillLoop_count msg.read
      (decide (g.txIndex = g.msgs.length - 1)) (l.init g msg).length outstanding
      ⟨(l.init g msg).buffer, (l.init g msg).needRestart, DW_I2C_TX_FIFO_DEPTH - txflr,
        DW_I2C_RX_FIFO_DEPTH - rxflr, g.rxOutstanding, []⟩ (by unfold DW_I2C_TX_FIFO_DEPTH; dsimp only; omega)
      (by unfold DW_I2C_RX_FIFO_DEPTH; dsimp only; omega) (by unfold DW_I2C_RX_FIFO_DEPTH; dsimp only; omega) known
    rw [ran] at again
    obtain ⟨rfl, rfl⟩ := Prod.mk.inj again
    obtain rfl : number = count := by omega
    unfold DW_I2C_TX_FIFO_DEPTH DW_I2C_RX_FIFO_DEPTH at *
    dsimp only at commands few answers some reads
    rw [List.nil_append] at commands
    have reading : fill.written.countP isReadCommand = if msg.read then number else 0 := by
      rw [commands, countP_commands _ _ _ _ _ (by omega)]
    have length : fill.written.length = number := by
      rw [commands]
      simp
      omega
    have reach : written ++ fill.written = reached (DwI2c.commands g.msgs) g.txIndex (offset + number) := by
      rw [all, commands, reached_add (commands_get here)]
    have asked : fill.rxOutstanding = BitVec.ofNat 32 (outstanding + fill.written.countP isReadCommand) := by
      rw [reads, known, reading, BitVec.ofNat_add]
      split <;> rfl
    have enough : outstanding + fill.written.countP isReadCommand ≤ 8 := by
      rw [reading]
      split
      · rename_i isRead
        obtain ⟨most, half⟩ := answers isRead
        obtain ⟨low, even⟩ | room := roomy.answers isRead
        · rw [exact'] at low even
          have bound := half (by omega) (by omega)
          omega
        · unfold fifoDepth at room
          rw [exact'] at room
          omega
      · exact bounded
    simp only [ran]
    split
    · rename_i more
      refine ⟨.within msg (offset + number) ?_ here (by dsimp only; omega) more (fun later => ?_) pointer reach, nofun,
        rfl, fun places received => received.frame rfl rfl rfl ?_, asked, enough, by dsimp only; omega⟩
      · exact set_bit _ (by decide)
      · by_cases begun : offset = 0
        · obtain ⟨txs, rxs, differs⟩ := roomy.restart (free later begun) later
          rw [exact'] at differs
          have wrote := some left (by omega) (by omega) fun isRead equal => differs isRead (by omega)
          omega
        · omega
      · exact set_other _ (by decide)
    · rename_i whole'
      have ended : offset + number = msg.buffer.length := by omega
      refine ⟨.between (clear_bit _ _) ?_, fun l' next => ?_, rfl, fun places received => received.frame rfl rfl rfl ?_,
        asked, enough, by dsimp only; omega⟩
      · rw [reach, ended]
        have full := reached_length (commands_get here)
        rw [length_map, length_range] at full
        exact full
      · obtain rfl := Option.some.inj next
        refine ⟨fun other there => ?_, fun busy => absurd (clear_bit _ _) busy, fun either => ?_⟩
        · rw [addr, ← own]
          exact addrs other (mem_of_getElem? there) msg member
        · obtain busy | first := either
          · exact absurd (clear_bit _ _) busy
          · cases first
      · exact clear_other _ (by decide)

theorem Sent.frame (sent : Sent msgs g written) {g' : Globals} (index : g'.txIndex = g.txIndex)
    (length : g'.txLength = g.txLength) (buffer : g'.txBuffer = g.txBuffer)
    (status : g'.status &&& DW_I2C_STATUS_WRITE_IN_PROGRESS = g.status &&& DW_I2C_STATUS_WRITE_IN_PROGRESS) :
    Sent msgs g' written := by
  cases sent with
  | between free all => exact .between (status.trans free) (index ▸ all)
  | within msg offset busy here whole left begun pointer all =>
    exact .within msg offset (status ▸ busy) (index ▸ here) (length ▸ whole) (length ▸ left) (index ▸ begun)
      (by rw [buffer, index, pointer]) (index ▸ all)

theorem Received.begins {places : List Pointer} (received : Received msgs g places) {msg : I2cMsg}
    (here : msgs[g.rxIndex]? = some msg) :
    ∃ length offset, (if g.status &&& DW_I2C_STATUS_READ_IN_PROGRESS = 0 then
        (msg.buffer.length, (⟨g.rxIndex, 0⟩ : Pointer)) else (g.rxLength, g.rxBuffer)) =
          (length, ⟨g.rxIndex, offset⟩) ∧
      offset + length = msg.buffer.length ∧ places = reached (positions msgs) g.rxIndex offset := by
  cases received with
  | between free all => exact ⟨_, 0, if_pos free, Nat.zero_add _, all⟩
  | within other offset busy there reads whole pointer all =>
    obtain rfl := Option.some.inj (there.symm.trans here)
    exact ⟨_, offset, by rw [if_neg busy, pointer], whole, all⟩

theorem readTurn_read (same : g.msgs = msgs) {places : List Pointer} (received : Received msgs g places)
    {outstanding : ℕ} (known : g.rxOutstanding = BitVec.ofNat 32 outstanding) {rxFifo : List UInt8}
    (answered : rxFifo.length ≤ outstanding) :
    ∃ stored fifo next goesOn, readTurn g rxFifo = (stored, fifo, next, goesOn) ∧
      Received msgs next (places ++ stored.map Prod.fst) ∧ stored.map Prod.snd ++ fifo = rxFifo ∧
      next.msgs = g.msgs ∧ next.rxOutstanding = BitVec.ofNat 32 (outstanding - stored.length) ∧
      (∀ written, Sent msgs g written → Sent msgs next written) := by
  subst same
  unfold readTurn
  cases here : g.msgs[g.rxIndex]? with
  | none => exact ⟨[], rxFifo, g, false, rfl, by simpa using received, rfl, rfl, known, fun _ => id⟩
  | some msg =>
    obtain ⟨length, offset, start, whole, all⟩ := received.begins here
    have segment := positions_get here
    by_cases writes : msg.read = false
    · simp only [if_pos writes]
      refine ⟨[], rxFifo, _, true, rfl, ?_, rfl, rfl, known, fun written sent => sent.frame rfl rfl rfl rfl⟩
      rw [writes, if_neg Bool.false_ne_true] at segment
      rw [List.map_nil, append_nil]
      cases received with
      | between free all => exact .between free (all.trans (reached_skip segment))
      | within other _ _ there reads _ _ _ =>
        obtain rfl := Option.some.inj (there.symm.trans here)
        rw [writes] at reads
        cases reads
    · have reads : msg.read = true := by simpa using writes
      rw [reads, if_pos rfl] at segment
      simp only [if_neg writes, start]
      obtain ⟨count, left, fifo, stored, ran, total, number, went, bytes⟩ :=
        readLoop_stored g.rxIndex length offset rxFifo whole
      have taken : stored.length ≤ outstanding := by
        have sizes := congrArg List.length bytes
        rw [length_append, length_map] at sizes
        omega
      have fewer : g.rxOutstanding - BitVec.ofNat 32 stored.length = BitVec.ofNat 32 (outstanding - stored.length) := by
        rw [known, ← Nat.sub_add_cancel taken, BitVec.ofNat_add, Nat.add_sub_cancel]
        exact add_sub_cancel_right _ _
      have reach : places ++ stored.map Prod.fst = reached (positions g.msgs) g.rxIndex (offset + count) := by
        rw [all, went, reached_add segment]
      simp only [ran]
      split
      · rename_i more
        refine ⟨stored, fifo, _, false, rfl, ?_, bytes, rfl, fewer, fun written sent => sent.frame rfl rfl rfl ?_⟩
        · exact .within msg (offset + count) (set_bit _ (by decide)) here reads (by dsimp only; omega) rfl reach
        · exact set_other _ (by decide)
      · rename_i done
        refine ⟨stored, fifo, _, true, rfl, ?_, bytes, rfl, fewer, fun written sent => sent.frame rfl rfl rfl ?_⟩
        · have ended : offset + count = msg.buffer.length := by omega
          refine .between (clear_bit _ _) ?_
          rw [reach, ended]
          have full := reached_length segment
          rw [length_map, length_range] at full
          exact full
        · exact clear_other _ (by decide)

end Turn

/-- What is known while a turn of `tsb_i2c_transfer_msg` is prepared -/
def Placed (s : Stream) : Prop :=
  match s.place with
  | .away | .reading _ => True
  | .transferring l => Local s.g l
  | .filling l txflr => Local s.g l ∧ s.txFifo.length ≤ txflr ∧ txflr ≤ fifoDepth

/-- What holds between the steps of a run -/
structure Sound (msgs : List I2cMsg) (s : Stream) : Prop where
  same : s.g.msgs = msgs
  sent : Sent msgs s.g s.written
  received : Received msgs s.g (s.stored.map Prod.fst)
  answered : s.stored.map Prod.snd ++ s.rxFifo = s.answers
  known : s.g.rxOutstanding = BitVec.ofNat 32 s.outstanding
  bounded : s.outstanding ≤ fifoDepth
  room : s.txFifo.length ≤ fifoDepth
  placed : Placed s

section Step
variable {msgs : List I2cMsg} {s s' : Stream}

section
variable (sound : Sound msgs s)
include sound

theorem Sound.goes {place : Place} (placed : Placed { s with place := place }) :
    Sound msgs { s with place := place } :=
  { sound with placed }

theorem Sound.afterRead (stat : BitVec 32) : Sound msgs (s.afterRead stat) := by
  unfold Stream.afterRead
  split
  · exact sound.goes (Local.start s.g)
  · exact sound.goes trivial

theorem Sound.interrupt {stat : BitVec 32} (stepped : step s (.interrupt stat) = some s') : Sound msgs s' := by
  obtain ⟨-, rfl⟩ := ite_some_none_eq_some.mp stepped
  split
  · exact sound.goes trivial
  · exact sound.afterRead stat

theorem Sound.take (stepped : step s .take = some s') : Sound msgs s' := by
  simp only [step] at stepped
  cases queue : s.txFifo with
  | nil =>
    rw [queue] at stepped
    cases stepped
  | cons cmd rest =>
    rw [queue] at stepped
    obtain rfl := Option.some.inj stepped
    have kept : Stream.outstanding
        { s with txFifo := rest, unanswered := s.unanswered + if isReadCommand cmd then 1 else 0 } = s.outstanding := by
      unfold Stream.outstanding
      rw [queue, List.countP_cons]
      dsimp only
      omega
    have room := sound.room
    rw [queue, length_cons] at room
    refine ⟨sound.same, sound.sent, sound.received, sound.answered, ?_, ?_, by dsimp only; omega, ?_⟩
    · rw [kept]
      exact sound.known
    · rw [kept]
      exact sound.bounded
    · have placed := sound.placed
      unfold Placed at placed ⊢
      dsimp only
      cases place : s.place with
      | away => trivial
      | reading stat => trivial
      | transferring l =>
        rw [place] at placed
        exact placed
      | filling l txflr =>
        rw [place] at placed
        obtain ⟨locals, low, tx⟩ := placed
        rw [queue, length_cons] at low
        exact ⟨locals, by omega, tx⟩

theorem Sound.answer {byte : UInt8} (stepped : step s (.answer byte) = some s') : Sound msgs s' := by
  obtain ⟨asked, same⟩ := ite_none_right_eq_some.mp stepped
  have bounded := sound.bounded
  have free : s.rxFifo.length < fifoDepth := by
    unfold Stream.outstanding at bounded
    omega
  rw [if_pos free] at same
  obtain rfl := Option.some.inj same
  have kept : Stream.outstanding { s with
      unanswered := s.unanswered - 1, rxFifo := s.rxFifo ++ [byte], answers := s.answers ++ [byte] } =
        s.outstanding := by
    unfold Stream.outstanding
    rw [length_append, List.length_singleton]
    dsimp only
    omega
  refine ⟨sound.same, sound.sent, sound.received, ?_, kept ▸ sound.known, kept ▸ bounded, sound.room, ?_⟩
  · change _ ++ (s.rxFifo ++ [byte]) = s.answers ++ [byte]
    rw [← append_assoc, sound.answered]
  · exact sound.placed

theorem Sound.handler (lengths : ∀ msg ∈ msgs, msg.buffer.length ≠ 0)
    (addrs : ∀ msg ∈ msgs, ∀ other ∈ msgs, msg.addr = other.addr) (steady : Steady s .handler)
    (stepped : step s .handler = some s') : Sound msgs s' := by
  simp only [step, Stream.handler] at stepped
  have placed := sound.placed
  have least : s.rxFifo.length ≤ s.outstanding := Nat.le_add_left _ _
  unfold Placed at placed
  unfold Steady at steady
  cases place : s.place with
  | away =>
    rw [place] at stepped
    cases stepped
  | reading stat =>
    rw [place] at stepped
    obtain ⟨stored, fifo, next, goesOn, ran, received, bytes, same, known, sent⟩ :=
      readTurn_read sound.same sound.received sound.known least
    simp only [ran] at stepped
    have size : stored.length + fifo.length = s.rxFifo.length := by
      rw [← bytes, length_append, length_map]
    have kept : Stream.outstanding { s with g := next, rxFifo := fifo, stored := s.stored ++ stored } =
        s.outstanding - stored.length := by
      unfold Stream.outstanding
      dsimp only
      omega
    have read : Sound msgs { s with g := next, rxFifo := fifo, stored := s.stored ++ stored } := by
      refine ⟨same.trans sound.same, sent _ sound.sent, ?_, ?_, ?_, ?_, sound.room, ?_⟩
      · rw [map_append]
        exact received
      · rw [map_append, append_assoc, bytes]
        exact sound.answered
      · rw [kept]
        exact known
      · rw [kept]
        exact (Nat.sub_le _ _).trans sound.bounded
      · unfold Placed
        dsimp only
        rw [place]
        trivial
    split at stepped
    · obtain rfl := Option.some.inj stepped
      rw [place] at read
      exact read
    · obtain rfl := Option.some.inj stepped
      rw [place] at read
      exact read.afterRead stat
  | transferring l =>
    rw [place] at stepped placed
    obtain rfl := Option.some.inj stepped
    exact sound.goes ⟨placed, Nat.le_refl _, sound.room⟩
  | filling l txflr =>
    rw [place] at stepped placed steady
    obtain ⟨locals, low, tx⟩ := placed
    have turned := transferTurn_turned sound.same lengths addrs sound.sent locals sound.known sound.bounded tx least
      steady
    obtain ⟨new, g, next, ran⟩ : ∃ new g next, transferTurn s.g l txflr s.rxFifo.length = (new, g, next) :=
      ⟨_, _, _, rfl⟩
    rw [ran] at turned
    obtain ⟨sent, goes, same, received, asked, bounded, few⟩ := turned
    dsimp only at sent goes same received asked bounded few
    have fits : (s.txFifo ++ new).take fifoDepth = s.txFifo ++ new := by
      apply List.take_of_length_le
      rw [length_append]
      omega
    have kept (place : Place) (mask : BitVec 32) : Stream.outstanding { s with
        g := g, intrMask := mask, place := place, txFifo := s.txFifo ++ new, written := s.written ++ new } =
          s.outstanding + new.countP isReadCommand := by
      unfold Stream.outstanding
      rw [List.countP_append]
      dsimp only
      omega
    have filled (place : Place) (mask : BitVec 32) (placed : Placed { s with
        g := g, intrMask := mask, place := place, txFifo := s.txFifo ++ new, written := s.written ++ new }) :
        Sound msgs { s with
          g := g, intrMask := mask, place := place, txFifo := s.txFifo ++ new, written := s.written ++ new } := by
      refine ⟨same.trans sound.same, sent, received _ sound.received, sound.answered, ?_, ?_, ?_, placed⟩
      · rw [kept]
        exact asked
      · rw [kept]
        exact bounded
      · rw [length_append]
        omega
    simp only [ran, fits] at stepped
    cases next with
    | none =>
      obtain rfl := Option.some.inj stepped
      exact filled .away g.intrMask trivial
    | some l =>
      obtain rfl := Option.some.inj stepped
      exact filled (.transferring l) s.intrMask (goes l rfl)

end

/-- A steady event keeps the commands those of the messages. -/
theorem Sound.step (lengths : ∀ msg ∈ msgs, msg.buffer.length ≠ 0)
    (addrs : ∀ msg ∈ msgs, ∀ other ∈ msgs, msg.addr = other.addr) (event : Event) (sound : Sound msgs s)
    (steady : Steady s event) (stepped : DwI2c.step s event = some s') : Sound msgs s' := by
  cases event with
  | interrupt stat => exact sound.interrupt stepped
  | handler => exact sound.handler lengths addrs steady stepped
  | take => exact sound.take stepped
  | answer byte => exact sound.answer stepped

theorem Sound.start (g : Globals) (msgs : List I2cMsg) : Sound msgs (.start g msgs) :=
  ⟨rfl, .between BitVec.zero_and rfl, .between BitVec.zero_and rfl, rfl, rfl, Nat.zero_le _, Nat.zero_le _, trivial⟩

/-- The commands and data so far are those that the messages ask for. -/
theorem Sound.streamed (sound : Sound msgs s) : Streamed msgs s := by
  refine ⟨?_, fun last => ?_, sound.bounded, ?_, sound.answered⟩
  · cases sound.sent with
    | between _ all | within _ _ _ _ _ _ _ _ all => exact all ▸ reached_prefix _ _ _
  · cases sound.sent with
    | between _ all =>
      have length : (commands msgs).length = msgs.length := List.length_mapIdx
      rw [all, last, ← length, reached_all]
    | within _ _ _ here =>
      rw [last, List.getElem?_eq_none (Nat.le_refl _)] at here
      cases here
  · cases sound.received with
    | between _ all | within _ _ _ _ _ _ _ all => exact all ▸ reached_prefix _ _ _

end Step

/-- In every transfer of messages to one address whose turns have room, the commands are those of the messages, the
receive FIFO has room for each answer, and each answer is stored where it belongs. -/
theorem transfer_streamed (g : Globals) (msgs : List I2cMsg) (lengths : ∀ msg ∈ msgs, msg.buffer.length ≠ 0)
    (addrs : ∀ msg ∈ msgs, ∀ other ∈ msgs, msg.addr = other.addr) (events : List Event) (s : Stream)
    (steady : Guarded step Steady (.start g msgs) events) (ran : run step (.start g msgs) events = some s) :
    Streamed msgs s := by
  have sound := run_invariant_of_guarded (Sound msgs) (Sound.start g msgs) steady ran
    @fun _ event _ sound steady stepped => sound.step lengths addrs event steady stepped
  exact sound.streamed

/-- A register number is written, and two bytes are read. -/
def registerRead : List I2cMsg := [⟨5, 0, [7]⟩, ⟨5, 1, [0, 0]⟩]

/-- The answers come one by one. -/
def registerReadEvents : List Event :=
  [.interrupt 0x10, .handler, .handler, .handler, .handler, .handler, .handler, .take, .take, .answer 9, .take,
    .interrupt 0x4, .handler, .handler, .answer 11, .interrupt 0x204, .handler, .handler]

theorem transfer_streamed_registerRead :
    ∃ s, run step (.start .clear registerRead) registerReadEvents = some s ∧ s.written = [0x007, 0x500, 0x300] ∧
      Streamed registerRead s := by
  refine exists_final Stream.written [0x007, 0x500, 0x300] (by decide +kernel) fun s ran written => ?_
  refine ⟨written, transfer_streamed .clear registerRead (by decide +kernel) (by decide +kernel)
    registerReadEvents s ?_ ran⟩
  decide +kernel

/-- Eight bytes to write fill the FIFO, and a byte of a second message comes after them. -/
def fullBetween : List I2cMsg := [⟨5, 0, [1, 2, 3, 4, 5, 6, 7, 8]⟩, ⟨5, 0, [9]⟩]

/-- The second turn finds the FIFO full, and the next interrupt goes on. -/
def fullBetweenEvents : List Event :=
  [.interrupt 0x10, .handler, .handler, .handler, .handler, .take, .interrupt 0x10, .handler, .handler]

/-- The second message starts without a restart. -/
theorem tsb_i2c_transfer_msg_loses_restart :
    ∃ s, run step (.start .clear fullBetween) fullBetweenEvents = some s ∧
      s.written = [1, 2, 3, 4, 5, 6, 7, 8, 0x209] ∧ ¬Streamed fullBetween s := by
  refine exists_final Stream.written [1, 2, 3, 4, 5, 6, 7, 8, 0x209] (by decide +kernel) fun s ran written => ?_
  refine ⟨written, fun streamed => ?_⟩
  have sent := streamed.sent
  rw [written] at sent
  exact absurd sent (by decide +kernel)

end Phabos.DwI2c
