import Mathlib.Data.List.Basic
import Phabos.Construction.Unipro.Transmit

namespace Phabos.Unipro
open List

/-- The stream is the message in chunks, of which the first that is not empty, and no other, is at the address that
starts a message, and one end of message after them. -/
def Framed (message : List (BitVec 8)) (stream : List TxEvent) : Prop :=
  ∃ chunks : List (Bool × List (BitVec 8)),
    stream = chunks.map (fun chunk => .data chunk.1 chunk.2) ++ [.eom] ∧
      (chunks.map Prod.snd).flatten = message ∧
      ∃ first rest, chunks.filter (fun chunk => !chunk.2.isEmpty) = first :: rest ∧ first.1 = true ∧
        ∀ chunk ∈ rest, chunk.1 = false

/-- The rest of a message in chunks, where the first chunk has the given mark and the others have none -/
inductive Chunked : Bool → List (BitVec 8) → List TxEvent → Prop
  | done (som : Bool) : Chunked som [] [.eom]
  | chunk (som : Bool) {bytes rest : List (BitVec 8)} {later : List TxEvent} (some : bytes ≠ []) :
      Chunked false rest later → Chunked som (bytes ++ rest) (.data som bytes :: later)

section Streams
variable {message : List (BitVec 8)} {stream : List TxEvent}

theorem Chunked.pieces {som : Bool} (chunked : Chunked som message stream) :
    ∃ chunks : List (Bool × List (BitVec 8)),
      stream = chunks.map (fun chunk => .data chunk.1 chunk.2) ++ [.eom] ∧
        (chunks.map Prod.snd).flatten = message ∧ (∀ chunk ∈ chunks, chunk.2 ≠ []) ∧
        (∀ chunk ∈ chunks.head?, chunk.1 = som) ∧ ∀ chunk ∈ chunks.tail, chunk.1 = false := by
  induction chunked with
  | done som => exact ⟨[], rfl, rfl, nofun, nofun, nofun⟩
  | @chunk som bytes rest later some _ ih =>
    obtain ⟨chunks, events, bytesOf, full, first, others⟩ := ih
    refine ⟨(som, bytes) :: chunks, ?_, ?_, ?_, ?_, ?_⟩
    · rw [events]
      rfl
    · rw [← bytesOf]
      rfl
    · exact forall_mem_cons.mpr ⟨some, full⟩
    · rintro chunk same
      rw [← Option.some.inj same]
    · intro chunk there
      cases chunks with
      | nil => cases there
      | cons next chunks =>
        rcases mem_cons.mp there with rfl | there
        · exact first chunk rfl
        · exact others chunk there

theorem filter_full {chunks : List (Bool × List (BitVec 8))} (full : ∀ chunk ∈ chunks, chunk.2 ≠ []) :
    chunks.filter (fun chunk => !chunk.2.isEmpty) = chunks := by
  refine filter_eq_self.mpr fun chunk there => ?_
  rw [Bool.not_eq_true', isEmpty_eq_false_iff]
  exact full chunk there

/-- Chunks of which the first has the start mark frame the message. -/
theorem Chunked.framed (chunked : Chunked true message stream) (nonempty : message ≠ []) : Framed message stream := by
  obtain ⟨chunks, events, bytes, full, first, others⟩ := chunked.pieces
  cases chunks with
  | nil => exact absurd bytes.symm nonempty
  | cons chunk rest =>
    exact ⟨chunk :: rest, events, bytes, chunk, rest, filter_full full, first chunk rfl, others⟩

theorem chunks_unique {chunks others : List (Bool × List (BitVec 8))}
    (same : chunks.map (fun chunk => TxEvent.data chunk.1 chunk.2) ++ [.eom] =
      others.map (fun chunk => TxEvent.data chunk.1 chunk.2) ++ [.eom]) : chunks = others := by
  refine map_injective_iff.mpr ?_ (append_cancel_right same)
  rintro ⟨som, bytes⟩ ⟨mark, data⟩ equal
  obtain ⟨rfl, rfl⟩ := TxEvent.data.inj equal
  rfl

/-- Without the start mark the message is not framed. -/
theorem Chunked.not_framed (chunked : Chunked false message stream) : ¬Framed message stream := by
  obtain ⟨chunks, events, bytes, full, first, others⟩ := chunked.pieces
  rintro ⟨marked, again, _, start, rest, filtered, mark, _⟩
  obtain rfl := chunks_unique (events.symm.trans again)
  rw [filter_full full] at filtered
  rw [filtered] at first
  exact absurd (first start rfl) (by rw [mark]; decide)

end Streams

section Send
variable {message : List (BitVec 8)} {readings : ℕ → BitVec 16} {n : ℕ} {sent : BitVec 32} {som : Bool}

/-- The length of a message as a `size_t` -/
def lengthOf (message : List (BitVec 8)) : BitVec 32 := BitVec.ofNat 32 message.length

/-- The number of bytes that a reading lets through -/
def countOf (message : List (BitVec 8)) (sent : BitVec 32) (reading : BitVec 16) : ℕ :=
  min reading.toNat (message.length - sent.toNat)

theorem sendChunk_eq (fits : message.length < 2 ^ 32) (left : sent.toNat ≤ message.length) (reading : BitVec 16) :
    tsbUniproSendChunk true (message.drop sent.toNat) (lengthOf message - sent) som reading =
      (((countOf message sent reading : ℕ) : Int),
        if reading = 0 then [] else [.data som ((message.drop sent.toNat).take (countOf message sent reading))]) := by
  have rest : (lengthOf message - sent).toNat = message.length - sent.toNat := by
    unfold lengthOf
    rw [BitVec.toNat_sub, BitVec.toNat_ofNat, Nat.mod_eq_of_lt fits]
    have := sent.isLt
    omega
  have widened : (reading.setWidth 32).toNat = reading.toNat := BitVec.toNat_setWidth_of_le (by decide)
  have none : reading.setWidth 32 = 0 ↔ reading = 0 := by
    rw [← BitVec.toNat_inj, ← BitVec.toNat_inj, widened]
    rfl
  unfold tsbUniproSendChunk
  dsimp only
  rw [if_neg (by decide)]
  by_cases empty : reading = 0
  · rw [if_pos (none.mpr empty), if_pos empty, empty]
    exact congrArg (fun count : ℕ => ((count : Int), ([] : List TxEvent))) (Nat.zero_min _).symm
  · rw [if_neg (fun zero => empty (none.mp zero)), if_neg empty]
    have least : (if reading.setWidth 32 > lengthOf message - sent then lengthOf message - sent
        else reading.setWidth 32).toNat = countOf message sent reading := by
      unfold countOf
      split
      · rename_i more
        rw [gt_iff_lt, BitVec.lt_def, widened, rest] at more
        rw [rest]
        omega
      · rename_i less
        rw [gt_iff_lt, BitVec.lt_def, widened, rest] at less
        rw [widened]
        omega
    rw [least]

theorem toNat_add_countOf (fits : message.length < 2 ^ 32) (left : sent.toNat ≤ message.length) (reading : BitVec 16) :
    (sent + BitVec.ofInt 32 ((countOf message sent reading : ℕ) : Int)).toNat = sent.toNat + countOf message sent reading := by
  rw [BitVec.ofInt_natCast, BitVec.toNat_add, BitVec.toNat_ofNat]
  have := sent.isLt
  unfold countOf
  omega

theorem countOf_pos {reading : BitVec 16} (more : sent.toNat < message.length) (space : reading ≠ 0) :
    0 < countOf message sent reading := by
  have some : reading.toNat ≠ 0 := fun zero => space (BitVec.eq_of_toNat_eq zero)
  unfold countOf
  omega

/-- The state of `tsb_unipro_send` after a chunk -/
def nextSent (message : List (BitVec 8)) (sent : BitVec 32) (reading : BitVec 16) : BitVec 32 :=
  sent + BitVec.ofInt 32 ((countOf message sent reading : ℕ) : Int)

section
variable (fits : message.length < 2 ^ 32)
include fits

theorem sendLoop_wait (more : sent.toNat < message.length) (none : readings n = 0) (fuel : ℕ) :
    tsbUniproSendLoop true message (lengthOf message) readings (fuel + 1) n sent som =
      tsbUniproSendLoop true message (lengthOf message) readings fuel (n + 1) sent som := by
  have below : sent < lengthOf message := by
    rw [BitVec.lt_def, lengthOf, BitVec.toNat_ofNat, Nat.mod_eq_of_lt fits]
    exact more
  rw [tsbUniproSendLoop, if_pos below]
  dsimp only
  have nothing : countOf message sent 0 = 0 := Nat.zero_min _
  have still : sent + BitVec.ofInt 32 ((0 : ℕ) : Int) = sent := BitVec.add_zero sent
  rw [sendChunk_eq fits (Nat.le_of_lt more), none, nothing, if_pos rfl]
  dsimp only
  rw [if_neg (by decide), still, if_neg (by decide)]
  exact congrFun Option.map_id _

theorem sendLoop_chunk (more : sent.toNat < message.length) (space : readings n ≠ 0) (fuel : ℕ) :
    tsbUniproSendLoop true message (lengthOf message) readings (fuel + 1) n sent som =
      (tsbUniproSendLoop true message (lengthOf message) readings fuel (n + 1)
        (nextSent message sent (readings n)) false).map fun later =>
          (later.1, .data som ((message.drop sent.toNat).take (countOf message sent (readings n))) :: later.2) := by
  have below : sent < lengthOf message := by
    rw [BitVec.lt_def, lengthOf, BitVec.toNat_ofNat, Nat.mod_eq_of_lt fits]
    exact more
  have count := countOf_pos more space
  rw [tsbUniproSendLoop, if_pos below]
  dsimp only
  rw [sendChunk_eq fits (Nat.le_of_lt more), if_neg (Int.not_lt.mpr (Int.natCast_nonneg _)),
    if_pos (Int.natCast_ne_zero.mpr (Nat.ne_of_gt count)), if_neg space]
  rfl

theorem sendLoop_end (whole : sent.toNat = message.length) (fuel : ℕ) :
    tsbUniproSendLoop true message (lengthOf message) readings (fuel + 1) n sent som =
      some ((lengthOf message).toInt, [.eom]) := by
  have same : sent = lengthOf message := by
    refine BitVec.eq_of_toNat_eq ?_
    rw [whole, lengthOf, BitVec.toNat_ofNat, Nat.mod_eq_of_lt fits]
  rw [tsbUniproSendLoop, same, if_neg (BitVec.lt_irrefl _)]

/-- The polling loop writes the rest of the message in chunks. -/
theorem sendLoop_chunked (live : ∀ n, ∃ m, n ≤ m ∧ readings m ≠ 0) (n : ℕ) (sent : BitVec 32) (som : Bool)
    (left : sent.toNat ≤ message.length) :
    ∃ turns stream, Chunked som (message.drop sent.toNat) stream ∧ ∀ fuel, turns ≤ fuel →
      tsbUniproSendLoop true message (lengthOf message) readings fuel n sent som =
        some ((lengthOf message).toInt, stream) := by
  -- The rest of the message gets shorter at a reading with space, and the next such reading gets nearer until then.
  induction rest : message.length - sent.toNat using Nat.strongRecOn generalizing n sent som with
  | _ rest shorter =>
    rcases Nat.eq_or_lt_of_le left with whole | more
    · refine ⟨1, [.eom], ?_, fun fuel enough => ?_⟩
      · rw [whole, drop_length]
        exact .done som
      · obtain ⟨fuel, rfl⟩ := Nat.exists_eq_add_of_le' enough
        exact sendLoop_end fits whole fuel
    have progress (n : ℕ) (space : readings n ≠ 0) : ∃ turns stream, Chunked som (message.drop sent.toNat) stream ∧
        ∀ fuel, turns ≤ fuel → tsbUniproSendLoop true message (lengthOf message) readings fuel n sent som =
          some ((lengthOf message).toInt, stream) := by
      have count := countOf_pos more space
      have bound : countOf message sent (readings n) ≤ message.length - sent.toNat := Nat.min_le_right _ _
      have after : (nextSent message sent (readings n)).toNat = sent.toNat + countOf message sent (readings n) :=
        toNat_add_countOf fits left _
      obtain ⟨turns, stream, chunked, ran⟩ := shorter _ (by omega) (n + 1) (nextSent message sent (readings n)) false
        (by omega) rfl
      refine ⟨turns + 1, .data som ((message.drop sent.toNat).take (countOf message sent (readings n))) :: stream, ?_,
        fun fuel enough => ?_⟩
      · rw [after, ← drop_drop] at chunked
        have bytes : (message.drop sent.toNat).take (countOf message sent (readings n)) ≠ [] := by
          refine ne_nil_of_length_pos ?_
          rw [length_take, length_drop]
          omega
        have whole := Chunked.chunk som bytes chunked
        rwa [take_append_drop] at whole
      · obtain ⟨fuel, rfl⟩ := Nat.exists_eq_add_of_le' (Nat.le_trans (Nat.le_add_left 1 turns) enough)
        rw [sendLoop_chunk fits more space, ran fuel (by omega)]
        rfl
    obtain ⟨m, later, space⟩ := live n
    induction wait : m - n generalizing n with
    | zero =>
      obtain rfl : m = n := by omega
      exact progress m space
    | succ wait nearer =>
      by_cases none : readings n = 0
      · obtain ⟨turns, stream, chunked, ran⟩ := nearer (n + 1) (by omega) (by omega)
        refine ⟨turns + 1, stream, chunked, fun fuel enough => ?_⟩
        obtain ⟨fuel, rfl⟩ := Nat.exists_eq_add_of_le' (Nat.le_trans (Nat.le_add_left 1 turns) enough)
        rw [sendLoop_wait fits more none]
        exact ran fuel (by omega)
      · exact progress n none

end

/-- The buffer of a message with its progress -/
def bufferOf (id : ℕ) (message : List (BitVec 8)) (som : Bool) (sent : BitVec 32) : TsbUniproBuffer :=
  ⟨id, message, som, sent, lengthOf message⟩

variable {id passes : ℕ}

theorem sle_iff {one other : BitVec 32} (below : one.toNat < 2 ^ 31) (under : other.toNat < 2 ^ 31) :
    one.sle other = true ↔ one.toNat ≤ other.toNat := by
  rw [BitVec.sle_iff_toInt_le, BitVec.toInt_eq_toNat_of_lt (by omega), BitVec.toInt_eq_toNat_of_lt (by omega)]
  omega

theorem transmit_eq (fits : message.length < 2 ^ 32) (left : sent.toNat ≤ message.length) (reading : BitVec 16) :
    (bufferOf id message som sent).transmit true reading =
      (if (lengthOf message).sle (nextSent message sent reading) then some 0 else none,
        bufferOf id message false (nextSent message sent reading),
        (if reading = 0 then [] else [.data som ((message.drop sent.toNat).take (countOf message sent reading))]) ++
          if (lengthOf message).sle (nextSent message sent reading) then [.eom] else []) := by
  unfold TsbUniproBuffer.transmit bufferOf
  dsimp only
  rw [sendChunk_eq fits left, if_neg (Int.not_lt.mpr (Int.natCast_nonneg _))]
  change (if (lengthOf message).sle (nextSent message sent reading) = true then _ else _) = _
  split
  · rfl
  · rw [append_nil]
    rfl

theorem txPasses_empty (isConnected : Bool) : txPasses readings passes n ⟨isConnected, []⟩ = [] := by
  induction passes generalizing n with
  | zero => rfl
  | succ passes ih =>
    rw [txPasses]
    exact ih

theorem txPasses_succ (fits : message.length < 2 ^ 32) (left : sent.toNat ≤ message.length) :
    txPasses readings (passes + 1) n ⟨true, [bufferOf id message som sent]⟩ =
      (if readings n = 0 then []
        else [.data som ((message.drop sent.toNat).take (countOf message sent (readings n)))]) ++
        if (lengthOf message).sle (nextSent message sent (readings n)) then [.eom]
        else txPasses readings passes (n + 1)
          ⟨true, [bufferOf id message false (nextSent message sent (readings n))]⟩ := by
  rw [txPasses]
  unfold tsbUniproSendTxBuffer
  dsimp only
  rw [transmit_eq fits left]
  cases (lengthOf message).sle (nextSent message sent (readings n)) with
  | true =>
    simp only [if_true]
    rw [txPasses_empty, append_nil]
  | false => simp only [Bool.false_eq_true, if_false, append_nil]

theorem lengthOf_toNat (fits : message.length < 2 ^ 32) : (lengthOf message).toNat = message.length := by
  rw [lengthOf, BitVec.toNat_ofNat, Nat.mod_eq_of_lt fits]

theorem complete_iff (fits : message.length < 2 ^ 31) (left : sent.toNat ≤ message.length) (reading : BitVec 16) :
    (lengthOf message).sle (nextSent message sent reading) = true ↔
      message.length ≤ sent.toNat + countOf message sent reading := by
  have wide : message.length < 2 ^ 32 := by omega
  have bound : countOf message sent reading ≤ message.length - sent.toNat := Nat.min_le_right _ _
  have length := lengthOf_toNat wide
  have after : (nextSent message sent reading).toNat = sent.toNat + countOf message sent reading :=
    toNat_add_countOf wide left _
  rw [sle_iff (by omega) (by omega), length, after]

theorem txPasses_wait (fits : message.length < 2 ^ 31) (more : sent.toNat < message.length) (none : readings n = 0) :
    txPasses readings (passes + 1) n ⟨true, [bufferOf id message som sent]⟩ =
      txPasses readings passes (n + 1) ⟨true, [bufferOf id message false sent]⟩ := by
  have wide : message.length < 2 ^ 32 := by omega
  have nothing : countOf message sent 0 = 0 := Nat.zero_min _
  have still : nextSent message sent 0 = sent := by
    unfold nextSent
    rw [nothing]
    exact BitVec.add_zero sent
  have part : ¬(lengthOf message).sle (nextSent message sent 0) = true := by
    rw [complete_iff fits (Nat.le_of_lt more), nothing]
    exact Nat.not_le_of_lt more
  rw [txPasses_succ wide (Nat.le_of_lt more), none, if_pos rfl, if_neg part, still, nil_append]

/-- After the first byte, or when there is space for it, the passes of the worker write what `tsb_unipro_send` does. -/
theorem txPasses_eq (fits : message.length < 2 ^ 31) {fuel : ℕ} {retval : Int} {stream : List TxEvent}
    (more : sent.toNat < message.length) (begun : som = false ∨ readings n ≠ 0)
    (ran : tsbUniproSendLoop true message (lengthOf message) readings fuel n sent som = some (retval, stream))
    (enough : fuel ≤ passes) : txPasses readings passes n ⟨true, [bufferOf id message som sent]⟩ = stream := by
  have wide : message.length < 2 ^ 32 := by omega
  induction fuel generalizing n sent som stream passes with
  | zero => cases ran
  | succ fuel ih =>
    obtain ⟨passes, rfl⟩ := Nat.exists_eq_add_of_le' (Nat.le_trans (Nat.le_add_left 1 fuel) enough)
    by_cases none : readings n = 0
    · obtain rfl : som = false := begun.resolve_right (not_not_intro none)
      rw [sendLoop_wait wide more none] at ran
      rw [txPasses_wait fits more none]
      exact ih more (.inl rfl) ran (by omega)
    · rw [sendLoop_chunk wide more none] at ran
      obtain ⟨⟨result, later⟩, turned, same⟩ := Option.map_eq_some_iff.mp ran
      obtain ⟨rfl, rfl⟩ := Prod.mk.inj same
      have after : (nextSent message sent (readings n)).toNat = sent.toNat + countOf message sent (readings n) :=
        toNat_add_countOf wide (Nat.le_of_lt more) _
      have bound : countOf message sent (readings n) ≤ message.length - sent.toNat := Nat.min_le_right _ _
      have complete := complete_iff fits (Nat.le_of_lt more) (readings n)
      rw [txPasses_succ wide (Nat.le_of_lt more), if_neg none, singleton_append]
      congr 1
      split
      · rename_i whole
        have all := complete.mp whole
        cases fuel with
        | zero => cases turned
        | succ fuel =>
          rw [sendLoop_end wide (by omega)] at turned
          exact (Prod.mk.inj (Option.some.inj turned)).2
      · rename_i part
        have rest := Nat.lt_of_not_le (mt complete.mpr part)
        exact ih (by omega) (.inl rfl) turned (by omega)

theorem transmit_long (fits : message.length < 2 ^ 32) (long : 2 ^ 31 ≤ message.length) (reading : BitVec 16) :
    (bufferOf id message true 0).transmit true reading =
      (some 0, bufferOf id message false (nextSent message 0 reading),
        (if reading = 0 then [] else [.data true (message.take reading.toNat)]) ++ [.eom]) := by
  have start : (0 : BitVec 32).toNat = 0 := rfl
  have first : (0 : BitVec 32).toNat ≤ message.length := Nat.zero_le _
  have short := reading.isLt
  have whole : countOf message 0 reading = reading.toNat := Nat.min_eq_left (by omega)
  have after : (nextSent message 0 reading).toNat = 0 + countOf message 0 reading := toNat_add_countOf fits first _
  have complete : (lengthOf message).sle (nextSent message 0 reading) = true := by
    rw [BitVec.sle_iff_toInt_le, BitVec.toInt_eq_toNat_cond, BitVec.toInt_eq_toNat_cond, lengthOf_toNat fits, after,
      whole]
    split <;> split <;> omega
  rw [transmit_eq fits first, if_pos complete, if_pos complete, whole]
  rfl

theorem txPasses_long (fits : message.length < 2 ^ 32) (long : 2 ^ 31 ≤ message.length) :
    txPasses readings (passes + 1) n ⟨true, [bufferOf id message true 0]⟩ =
      (if readings n = 0 then [] else [.data true (message.take (readings n).toNat)]) ++ [.eom] := by
  rw [txPasses]
  unfold tsbUniproSendTxBuffer
  dsimp only
  rw [transmit_long fits long]
  dsimp only
  rw [txPasses_empty, append_nil]

/-- One chunk and an end do not frame a message of 2^31 bytes or more. -/
theorem not_framed_long (long : 2 ^ 31 ≤ message.length) (reading : BitVec 16) :
    ¬Framed message ((if reading = 0 then [] else [.data true (message.take reading.toNat)]) ++ [.eom]) := by
  rintro ⟨chunks, events, bytes, -⟩
  have written : (if reading = 0 then [] else [TxEvent.data true (message.take reading.toNat)]) =
      (if reading = 0 then [] else [(true, message.take reading.toNat)]).map
        (fun chunk : Bool × List (BitVec 8) => .data chunk.1 chunk.2) := by
    split <;> rfl
  rw [written] at events
  obtain rfl := chunks_unique events
  have short : message.length ≤ reading.toNat := by
    calc message.length = _ := congrArg length bytes.symm
      _ ≤ reading.toNat := by
        split
        · exact Nat.zero_le _
        · rw [map_singleton, flatten_singleton, length_take]
          exact Nat.min_le_left _ _
  have := reading.isLt
  omega

end Send

/-- On a connected CPort `tsb_unipro_send` always frames its message, and the asynchronous path writes the same stream
if and only if there is space at the first reading and the length fits into an `int`. -/
theorem tsb_unipro_paths_frame_iff (message : List (BitVec 8)) (nonempty : message ≠ [])
    (fits : message.length < 2 ^ 32) (readings : ℕ → BitVec 16) (live : ∀ n, ∃ m, n ≤ m ∧ readings m ≠ 0) (id : ℕ) :
    ∃ turns stream asyncStream,
      (∀ fuel, turns ≤ fuel →
        tsbUniproSend true message readings fuel = some ((BitVec.ofNat 32 message.length).toInt, stream)) ∧
      (∀ passes, turns ≤ passes →
        txPasses readings passes 0 (UniproCport.submit ⟨true, []⟩ id message).2 = asyncStream) ∧
      Framed message stream ∧
      ((Framed message asyncStream ∧ asyncStream = stream) ↔ readings 0 ≠ 0 ∧ message.length < 2 ^ 31) := by
  have positive : (0 : BitVec 32).toNat < message.length := List.length_pos_iff.mpr nonempty
  obtain ⟨turns, stream, chunked, ran⟩ := sendLoop_chunked fits live 0 0 true (Nat.zero_le _)
  have framed : Framed message stream := chunked.framed nonempty
  by_cases short : message.length < 2 ^ 31
  · by_cases space : readings 0 = 0
    · -- The first pass drops the mark of the message.
      obtain ⟨later, asyncStream, unmarked, turned⟩ := sendLoop_chunked fits live 1 0 false (Nat.zero_le _)
      refine ⟨max turns (later + 1), stream, asyncStream, fun fuel enough => ran fuel (by omega), fun passes enough => ?_,
        framed, ?_⟩
      · obtain ⟨passes, rfl⟩ := Nat.exists_eq_add_of_le' (show 1 ≤ passes by omega)
        have first : txPasses readings (passes + 1) 0 ⟨true, [bufferOf id message true 0]⟩ =
            txPasses readings passes 1 ⟨true, [bufferOf id message false 0]⟩ := txPasses_wait short positive space
        exact first.trans (txPasses_eq short positive (.inl rfl) (turned later (Nat.le_refl _)) (by omega))
      · refine iff_of_false (fun both => unmarked.not_framed both.1) fun both => both.1 space
    · refine ⟨turns, stream, stream, ran, fun passes enough => ?_, framed, iff_of_true ⟨framed, rfl⟩ ⟨space, short⟩⟩
      exact txPasses_eq short positive (.inr space) (ran turns (Nat.le_refl _)) enough
  · have long : 2 ^ 31 ≤ message.length := Nat.le_of_not_lt short
    refine ⟨max turns 1, stream, _, fun fuel enough => ran fuel (by omega), fun passes enough => ?_, framed,
      iff_of_false (fun both => not_framed_long long (readings 0) both.1) fun both => short both.2⟩
    obtain ⟨passes, rfl⟩ := Nat.exists_eq_add_of_le' (show 1 ≤ passes by omega)
    exact txPasses_long fits long

/-- A message of three bytes with space for two at a time -/
theorem tsb_unipro_paths_frame_iff_two_chunks :
    ∃ turns stream asyncStream,
      (∀ fuel, turns ≤ fuel → tsbUniproSend true [1, 2, 3] (fun _ => 2) fuel = some (3, stream)) ∧
      (∀ passes, turns ≤ passes →
        txPasses (fun _ => 2) passes 0 (UniproCport.submit ⟨true, []⟩ 0 [1, 2, 3]).2 = asyncStream) ∧
      Framed [1, 2, 3] stream ∧ Framed [1, 2, 3] asyncStream ∧ asyncStream = stream := by
  obtain ⟨turns, stream, asyncStream, ran, passed, framed, same⟩ := tsb_unipro_paths_frame_iff [1, 2, 3] (by decide)
    (by decide) (fun _ => 2) (fun n => ⟨n, Nat.le_refl n, by decide⟩) 0
  exact ⟨turns, stream, asyncStream, ran, passed, framed, same.mpr ⟨by decide, by decide⟩⟩

/-- When the first reading has no space the asynchronous path writes its first chunk as if a message went on. -/
theorem tsb_unipro_send_async_loses_start :
    tsbUniproSend true [1, 2, 3] (fun n => if n = 0 then 0 else 8) 3 = some (3, [.data true [1, 2, 3], .eom]) ∧
      txPasses (fun n => if n = 0 then 0 else 8) 2 0 (UniproCport.submit ⟨true, []⟩ 0 [1, 2, 3]).2 =
        [.data false [1, 2, 3], .eom] ∧
      ¬Framed [1, 2, 3] [.data false [1, 2, 3], .eom] := by
  refine ⟨by decide +kernel, by decide +kernel, ?_⟩
  exact (Chunked.chunk false (by decide) (.done false) : Chunked false ([1, 2, 3] ++ []) _).not_framed

end Phabos.Unipro
