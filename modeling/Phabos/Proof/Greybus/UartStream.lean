import Phabos.Construction.Greybus.ApUart
import Phabos.Library.Counting
import Phabos.Library.Run

namespace Phabos.ApUart
open List

open Library Function List

theorem reqSize_lt (payload : List UInt8) : reqSize payload < 65536 := by
  have low := (payload.getD 0 0).toNat_lt
  have high := (payload.getD (0 + 1) 0).toNat_lt
  unfold reqSize le16
  omega

theorem data_take_prefix (requests : List (List UInt8)) {few many : Nat} (fewer : few ≤ many) :
    (requests.take few).flatMap reqData <+: (requests.take many).flatMap reqData := by
  obtain ⟨rest, split⟩ := take_prefix_take_left (l := requests) fewer
  rw [← split, flatMap_append]
  exact prefix_append _ _

/-- What a place of a read says of the entry that it has, when the reads have taken so many entries off the fifo and have
copied the data of so many -/
def Place.At (size offset : Nat → Nat) (consumed copied : Nat) : Place → Prop
  | .measure entry => entry = consumed ∧ copied = consumed
  | .copy entry nread => entry = consumed ∧ copied = consumed ∧ nread = size entry
  | .advance entry nread => entry = consumed ∧ copied = consumed + 1 ∧ nread = size entry ∧ offset entry = 0
  | .test entry _ => entry = consumed ∧ copied = consumed + 1 ∧ offset entry = size entry
  | .unlink entry _ => entry = consumed ∧ copied = consumed + 1
  | .release entry _ => entry < consumed
  | .lost => False
  | .down | .fetch | .done _ => True

variable {place : Place}

theorem Place.At.of_not_holding {size size' offset offset' : Nat → Nat} {consumed consumed' copied copied' : Nat}
    (at_ : place.At size offset consumed copied) (free : place.holding = false) (more : consumed ≤ consumed') :
    place.At size' offset' consumed' copied' := by
  cases place with
  | release => exact lt_of_lt_of_le at_ more
  | lost => exact at_
  | down | fetch | done => trivial
  | measure | copy | advance | test | unlink => cases free

theorem Place.At.congr {size size' offset offset' : Nat → Nat} {consumed copied : Nat}
    (at_ : place.At size offset consumed copied) (same_size : size' consumed = size consumed)
    (same_offset : offset' consumed = offset consumed) : place.At size' offset' consumed copied := by
  cases place with
  | copy =>
    obtain ⟨rfl, rest⟩ := at_
    exact ⟨rfl, same_size ▸ rest⟩
  | advance | test =>
    obtain ⟨rfl, rest⟩ := at_
    exact ⟨rfl, same_size ▸ same_offset ▸ rest⟩
  | down | fetch | measure | unlink | release | done | lost => exact at_

def Place.releasing (entry : Nat) : Place → Bool
  | .release other _ => other = entry
  | _ => false

/-- The reads have taken so many entries off the fifo and have copied the data of so many. -/
structure Held (u : Uart) (consumed copied : Nat) : Prop where
  order : consumed ≤ copied
  within : copied ≤ u.requests.length
  fifo : u.fifo = range' consumed (u.requests.length - consumed)
  bytes : u.bytes = (u.requests.take copied).flatMap reqData
  fresh : ∀ entry, copied ≤ entry → u.offset entry = 0
  permits : u.fifo.length = u.permits + u.reads.countP (fun read => read.place.claiming) + (if u.listed then 1 else 0)
  single : u.reads.countP (fun read => read.place.holding) ≤ 1
  free : u.reads.countP (fun read => read.place.holding) = 0 → copied = consumed
  places : ∀ read ∈ u.reads, read.place.At (fun entry => reqSize (u.payload entry)) u.offset consumed copied
  released : ∀ entry, u.released.count entry + u.reads.countP (fun read => read.place.releasing entry) =
    if entry < consumed then 1 else 0

theorem held_gbUartProbe : Held gbUartProbe 0 0 where
  order := Nat.le_refl 0
  within := Nat.le_refl 0
  fifo := rfl
  bytes := rfl
  fresh := fun _ _ => rfl
  permits := rfl
  single := Nat.zero_le 1
  free := fun _ => rfl
  places := fun _ mem => by cases mem
  released := fun _ => rfl

section Steps
variable {u : Uart} {consumed copied : Nat}

variable {read : Read}

theorem Held.consumed_lt (held : Held u consumed copied) (mem : read ∈ u.reads)
    (claims : read.place.claiming = true) : consumed < u.requests.length := by
  have permits := held.permits
  have some_claim : 0 < u.reads.countP fun read => read.place.claiming :=
    countP_pos_iff.mpr ⟨read, mem, claims⟩
  rw [held.fifo, length_range'] at permits
  omega

theorem Place.claiming_of_holding (holds : place.holding = true) : place.claiming = true := by
  cases place with
  | fetch => rfl
  | _ => exact holds

theorem Held.rxData (held : Held u consumed copied) (quiet : u.listed = false) (payload : List UInt8) :
    Held (u.rxData payload) consumed copied := by
  unfold Uart.rxData
  split
  · exact held
  split
  · exact held
  have within := held.within
  have order := held.order
  have more : u.requests.length + 1 - consumed = u.requests.length - consumed + 1 := by omega
  refine ⟨order, ?_, ?_, ?_, ?_, ?_, held.single, held.free, ?_, held.released⟩
  · show copied ≤ (u.requests ++ [payload]).length
    rw [length_append]
    omega
  · show u.fifo ++ [u.requests.length] = range' consumed ((u.requests ++ [payload]).length - consumed)
    rw [length_append, length_singleton, more, range'_concat, held.fifo, Nat.one_mul,
      Nat.add_sub_cancel' (by omega)]
  · show u.bytes = ((u.requests ++ [payload]).take copied).flatMap reqData
    rw [take_append_of_le_length within]
    exact held.bytes
  · intro entry later
    show update u.offset u.requests.length 0 entry = 0
    by_cases here : entry = u.requests.length
    · rw [here, update_self]
    · rw [update_of_ne here]
      exact held.fresh entry later
  · show (u.fifo ++ [u.requests.length]).length = _ + 1
    have permits := held.permits
    rw [quiet, if_neg Bool.false_ne_true] at permits
    rw [length_append, permits]
    rfl
  · intro read mem
    have at_ := held.places read mem
    by_cases holds : read.place.holding = true
    · have there := held.consumed_lt mem (Place.claiming_of_holding holds)
      apply at_.congr
      · show reqSize ((u.requests ++ [payload]).getD consumed []) = reqSize (u.requests.getD consumed [])
        rw [getD_eq_getElem?_getD, getElem?_append_left there, getD_eq_getElem?_getD]
      · show update u.offset u.requests.length 0 consumed = u.offset consumed
        rw [update_of_ne there.ne]
    · exact at_.of_not_holding (Bool.eq_false_iff.mpr holds) (Nat.le_refl _)

theorem Held.up (held : Held u consumed copied) (listed : u.listed = true) :
    Held { u with listed := false, permits := u.permits + 1 } consumed copied := by
  refine { held with permits := ?_ }
  have permits := held.permits
  rw [listed, if_pos rfl] at permits
  show u.fifo.length = u.permits + 1 + u.reads.countP (fun read => read.place.claiming) + 0
  omega

theorem Held.call (held : Held u consumed copied) (count : Nat) :
    Held { u with reads := u.reads ++ [⟨count, .down⟩] } consumed copied := by
  have same : ∀ counted : Read → Bool, counted ⟨count, .down⟩ = false →
      (u.reads ++ [(⟨count, .down⟩ : Read)]).countP counted = u.reads.countP counted := by
    intro counted not_counted
    rw [countP_append, countP_singleton, not_counted]
    rfl
  have same_holding := same (fun read => read.place.holding) rfl
  have same_claiming := same (fun read => read.place.claiming) rfl
  refine { held with permits := ?_, single := ?_, free := ?_, places := ?_, released := ?_ }
  · dsimp only
    rw [same_claiming]
    exact held.permits
  · dsimp only
    rw [same_holding]
    exact held.single
  · dsimp only
    rw [same_holding]
    exact held.free
  · intro read mem
    cases mem_append.mp mem with
    | inl old => exact held.places read old
    | inr new =>
      rw [mem_singleton.mp new]
      trivial
  · intro entry
    dsimp only
    rw [same (fun read => read.place.releasing entry) rfl]
    exact held.released entry

variable {index : Nat}

theorem countP_moved (counted : Place → Bool) (place : Place)
    (here : u.reads[index]? = some read) (same : counted read.place = counted place) :
    (u.reads.set index ⟨read.count, place⟩).countP (fun read => counted read.place) =
      u.reads.countP fun read => counted read.place :=
  countP_set_of_eq here same

section
variable (held : Held u consumed copied) (here : u.reads[index]? = some read)
include held here

theorem Held.hold (holds : read.place.holding = true) (still : place.holding = true) {offset : Nat → Nat}
    {bytes : List UInt8} {copied' : Nat} (order : consumed ≤ copied') (within : copied' ≤ u.requests.length)
    (same_bytes : bytes = (u.requests.take copied').flatMap reqData)
    (fresh : ∀ entry, copied' ≤ entry → offset entry = 0)
    (at_ : place.At (fun entry => reqSize (u.payload entry)) offset consumed copied') :
    Held ({ u with offset := offset, bytes := bytes }.move index read place) consumed copied' := by
  have same_holding := countP_moved (fun place => place.holding) place here (holds.trans still.symm)
  have same_claiming := countP_moved (fun place => place.claiming) place here
    ((Place.claiming_of_holding holds).trans (Place.claiming_of_holding still).symm)
  have someone : 0 < u.reads.countP fun read => read.place.holding :=
    countP_pos_iff.mpr ⟨read, mem_of_getElem? here, holds⟩
  refine ⟨order, within, held.fifo, same_bytes, fresh, ?_, ?_, ?_, ?_, ?_⟩
  · show u.fifo.length = u.permits + (u.reads.set index ⟨read.count, place⟩).countP _ + _
    rw [same_claiming]
    exact held.permits
  · show (u.reads.set index ⟨read.count, place⟩).countP _ ≤ 1
    rw [same_holding]
    exact held.single
  · intro none_holds
    change (u.reads.set index ⟨read.count, place⟩).countP _ = 0 at none_holds
    rw [same_holding] at none_holds
    omega
  · intro other mem
    cases mem_set_of_countP_le_one here held.single holds mem with
    | inl new =>
      rw [new]
      exact at_
    | inr old => exact (held.places other old.1).of_not_holding old.2 (Nat.le_refl _)
  · intro entry
    have not_releasing : ∀ place : Place, place.holding = true → place.releasing entry = false := by
      intro place holds
      cases place with
      | release => cases holds
      | _ => rfl
    have same := countP_moved (fun place => place.releasing entry) place here
      ((not_releasing _ holds).trans (not_releasing _ still).symm)
    show u.released.count entry + (u.reads.set index ⟨read.count, place⟩).countP _ = _
    rw [same]
    exact held.released entry

theorem Held.down (there : read.place = .down) (permit : u.permits ≠ 0) :
    Held ({ u with permits := u.permits - 1 }.move index read .fetch) consumed copied := by
  have same_holding := countP_moved (fun place => place.holding) .fetch here (by rw [there]; rfl)
  have claiming := countP_set_add (fun read : Read => read.place.claiming) ⟨read.count, .fetch⟩ here
  rw [there] at claiming
  change _ + 0 = _ + 1 at claiming
  refine ⟨held.order, held.within, held.fifo, held.bytes, held.fresh, ?_, ?_, ?_, ?_, ?_⟩
  · have permits := held.permits
    show u.fifo.length = u.permits - 1 + (u.reads.set index ⟨read.count, .fetch⟩).countP _ +
      (if u.listed then 1 else 0)
    omega
  · exact same_holding.trans_le held.single
  · intro none_holds
    exact held.free (same_holding.symm.trans none_holds)
  · intro other mem
    cases mem_or_eq_of_mem_set mem with
    | inl old => exact held.places other old
    | inr new =>
      rw [new]
      trivial
  · intro entry
    have same := countP_moved (fun place => place.releasing entry) .fetch here (by rw [there]; rfl)
    show u.released.count entry + (u.reads.set index ⟨read.count, .fetch⟩).countP _ = _
    rw [same]
    exact held.released entry

theorem Held.fetch (there : read.place = .fetch) (alone : ∀ other ∈ u.reads, other.place.holding = false) :
    Held (u.move index read (.measure consumed)) consumed copied := by
  have none_holds : u.reads.countP (fun read => read.place.holding) = 0 := by
    rw [countP_eq_zero]
    intro other mem
    rw [alone other mem]
    exact Bool.false_ne_true
  have holding := countP_set_add (fun read : Read => read.place.holding) ⟨read.count, .measure consumed⟩ here
  have same_claiming :=
    countP_moved (fun place => place.claiming) (.measure consumed) here (by rw [there]; rfl)
  rw [there] at holding
  change _ + 0 = _ + 1 at holding
  refine ⟨held.order, held.within, held.fifo, held.bytes, held.fresh, ?_, ?_, ?_, ?_, ?_⟩
  · show u.fifo.length = u.permits + (u.reads.set index ⟨read.count, .measure consumed⟩).countP _ + _
    rw [same_claiming]
    exact held.permits
  · show (u.reads.set index ⟨read.count, .measure consumed⟩).countP _ ≤ 1
    omega
  · intro none_left
    change (u.reads.set index ⟨read.count, .measure consumed⟩).countP _ = 0 at none_left
    omega
  · intro other mem
    cases mem_or_eq_of_mem_set mem with
    | inl old => exact held.places other old
    | inr new =>
      rw [new]
      exact ⟨rfl, held.free none_holds⟩
  · intro entry
    have same :=
      countP_moved (fun place => place.releasing entry) (.measure consumed) here (by rw [there]; rfl)
    show u.released.count entry + (u.reads.set index ⟨read.count, .measure consumed⟩).countP _ = _
    rw [same]
    exact held.released entry

end

section
variable (held : Held u consumed copied)
include held

theorem Held.unlink {index nread : Nat} (here : u.reads[index]? = some read)
    (there : read.place = .unlink consumed nread) :
    Held ({ u with fifo := u.fifo.erase consumed }.move index read (.release consumed nread))
      (consumed + 1) copied := by
  have mem := mem_of_getElem? here
  have lt : consumed < u.requests.length := held.consumed_lt mem (by rw [there]; rfl)
  obtain ⟨_, full⟩ : consumed = consumed ∧ copied = consumed + 1 := by
    have at_ := held.places read mem
    rw [there] at at_
    exact at_
  have fifo : u.fifo = consumed :: range' (consumed + 1) (u.requests.length - (consumed + 1)) := by
    have more : u.requests.length - consumed = u.requests.length - (consumed + 1) + 1 := by omega
    rw [held.fifo, more, range'_succ]
  have holding := countP_set_add (fun read : Read => read.place.holding) ⟨read.count, .release consumed nread⟩ here
  have claiming := countP_set_add (fun read : Read => read.place.claiming) ⟨read.count, .release consumed nread⟩ here
  rw [there] at holding claiming
  change _ + 1 = _ + 0 at holding claiming
  have single := held.single
  refine ⟨full.ge, held.within, ?_, held.bytes, held.fresh, ?_, ?_, ?_, ?_, ?_⟩
  · show u.fifo.erase consumed = _
    rw [fifo, erase_cons_head]
    rfl
  · have permits := held.permits
    show (u.fifo.erase consumed).length =
      u.permits + (u.reads.set index ⟨read.count, .release consumed nread⟩).countP _ + (if u.listed then 1 else 0)
    rw [fifo, length_cons] at permits
    rw [fifo, erase_cons_head]
    omega
  · show (u.reads.set index ⟨read.count, .release consumed nread⟩).countP _ ≤ 1
    omega
  · intro _
    exact full
  · intro other member
    cases mem_set_of_countP_le_one here held.single (by rw [there]; rfl) member with
    | inl new =>
      rw [new]
      exact Nat.lt_succ_self consumed
    | inr old => exact (held.places other old.1).of_not_holding old.2 (Nat.le_succ _)
  · intro entry
    have releasing :=
      countP_set_add (fun read : Read => read.place.releasing entry) ⟨read.count, .release consumed nread⟩ here
    have released := held.released entry
    rw [there] at releasing
    change _ + 0 = _ + (if decide (consumed = entry) = true then 1 else 0) at releasing
    simp only [decide_eq_true_eq] at releasing
    show u.released.count entry + (u.reads.set index ⟨read.count, .release consumed nread⟩).countP _ = _
    by_cases same : consumed = entry
    · rw [if_pos same] at releasing
      rw [if_neg (by omega)] at released
      rw [if_pos (by omega)]
      omega
    · rw [if_neg same] at releasing
      have still : (entry < consumed + 1) = (entry < consumed) := propext (by omega)
      simp only [still]
      omega

theorem Held.release {index entry nread : Nat} (here : u.reads[index]? = some read)
    (there : read.place = .release entry nread) :
    Held ({ u with released := u.released ++ [entry] }.move index read (.done nread)) consumed copied := by
  have same_holding := countP_moved (fun place => place.holding) (.done nread) here (by rw [there]; rfl)
  have same_claiming := countP_moved (fun place => place.claiming) (.done nread) here (by rw [there]; rfl)
  refine ⟨held.order, held.within, held.fifo, held.bytes, held.fresh, ?_, ?_, ?_, ?_, ?_⟩
  · show u.fifo.length = u.permits + (u.reads.set index ⟨read.count, .done nread⟩).countP _ + _
    rw [same_claiming]
    exact held.permits
  · exact same_holding.trans_le held.single
  · intro none_holds
    exact held.free (same_holding.symm.trans none_holds)
  · intro other mem
    cases mem_or_eq_of_mem_set mem with
    | inl old => exact held.places other old
    | inr new =>
      rw [new]
      trivial
  · intro other
    have releasing := countP_set_add (fun read : Read => read.place.releasing other) ⟨read.count, .done nread⟩ here
    have released := held.released other
    rw [there] at releasing
    change _ + (if decide (entry = other) = true then 1 else 0) = _ + 0 at releasing
    simp only [decide_eq_true_eq] at releasing
    show (u.released ++ [entry]).count other + (u.reads.set index ⟨read.count, .done nread⟩).countP _ = _
    rw [count_append, count_singleton, ← released]
    by_cases same : entry = other
    · rw [if_pos same] at releasing
      rw [if_pos (beq_iff_eq.mpr same)]
      omega
    · rw [if_neg same] at releasing
      rw [if_neg (by rwa [beq_iff_eq])]
      omega

theorem Held.at_place (here : u.reads[index]? = some read) (there : read.place = place) :
    place.At (fun entry => reqSize (u.payload entry)) u.offset consumed copied :=
  there ▸ held.places read (mem_of_getElem? here)

theorem Held.advance {next : Uart} (here : u.reads[index]? = some read) (orderly : Orderly u (.advance index))
    (stepped : u.advance index read = some next) : ∃ consumed copied, Held next consumed copied := by
  have mem := mem_of_getElem? here
  obtain ⟨count, place⟩ := read
  cases place with
  | down =>
    simp only [Uart.advance] at stepped
    split at stepped
    case isTrue => cases stepped
    case isFalse permit =>
      cases stepped
      exact ⟨_, _, held.down here rfl permit⟩
  | fetch =>
    have lt := held.consumed_lt mem rfl
    have more : u.requests.length - consumed = u.requests.length - (consumed + 1) + 1 := by omega
    have fifo := held.fifo
    rw [more, range'_succ] at fifo
    have alone : ∀ other ∈ u.reads, other.place.holding = false := by
      simp only [Orderly, here] at orderly
      exact orderly
    simp only [Uart.advance, fifo] at stepped
    cases stepped
    exact ⟨_, _, held.fetch here rfl alone⟩
  | measure entry =>
    obtain ⟨rfl, full⟩ := held.at_place here rfl
    have asked : reqSize (u.payload entry) - u.offset entry ≤ count := by
      simp only [Orderly, here] at orderly
      exact orderly
    have start := held.fresh entry full.le
    have nread : u.nread count entry = reqSize (u.payload entry) := by
      have bound := reqSize_lt (u.payload entry)
      unfold Uart.nread
      rw [start] at asked ⊢
      omega
    cases stepped
    refine ⟨entry, copied, ?_⟩
    exact held.hold here rfl rfl held.order held.within held.bytes held.fresh ⟨rfl, full, nread⟩
  | copy entry nread =>
    obtain ⟨rfl, full, whole⟩ := held.at_place here rfl
    have lt := held.consumed_lt mem rfl
    have start := held.fresh entry full.le
    cases stepped
    refine ⟨entry, entry + 1, ?_⟩
    refine held.hold here rfl rfl (Nat.le_succ _) lt ?_ ?_ ⟨rfl, rfl, whole, start⟩
    · have payload : u.payload entry = u.requests[entry] := by
        rw [Uart.payload, getD_eq_getElem?_getD, getElem?_eq_getElem lt]
        rfl
      dsimp only at whole
      rw [held.bytes, full, start, whole, payload, take_succ_eq_append_getElem lt, flatMap_append,
        flatMap_singleton]
      rfl
    · intro other later
      exact held.fresh other (by omega)
  | advance entry nread =>
    obtain ⟨rfl, full, whole, start⟩ := held.at_place here rfl
    cases stepped
    refine ⟨entry, copied, ?_⟩
    refine held.hold here rfl rfl held.order held.within held.bytes ?_ ⟨rfl, full, ?_⟩
    · intro other later
      rw [update_of_ne (by omega)]
      exact held.fresh other later
    · rw [update_self, start, whole, Nat.zero_add]
  | test entry nread =>
    obtain ⟨rfl, full, reached⟩ := held.at_place here rfl
    simp only [Uart.advance] at stepped
    rw [if_pos reached.ge] at stepped
    cases stepped
    refine ⟨entry, copied, ?_⟩
    exact held.hold here rfl rfl held.order held.within held.bytes held.fresh ⟨rfl, full⟩
  | unlink entry nread =>
    obtain ⟨rfl, full⟩ := held.at_place here rfl
    cases stepped
    exact ⟨_, _, held.unlink here rfl⟩
  | release entry nread =>
    cases stepped
    exact ⟨_, _, held.release here rfl⟩
  | done => cases stepped
  | lost => cases stepped

/-- An orderly step keeps the reader's place in the stream. -/
theorem Held.step {action : Action} {next : Uart} (orderly : Orderly u action)
    (stepped : ApUart.step u action = some next) : ∃ consumed copied, Held next consumed copied := by
  cases action with
  | receive payload =>
    simp only [ApUart.step] at stepped
    split at stepped
    case isTrue => cases stepped
    case isFalse quiet =>
      cases stepped
      exact ⟨_, _, held.rxData (Bool.eq_false_iff.mpr quiet) payload⟩
  | up =>
    simp only [ApUart.step] at stepped
    split at stepped
    case isTrue listed =>
      cases stepped
      exact ⟨_, _, held.up listed⟩
    case isFalse => cases stepped
  | call count =>
    cases stepped
    exact ⟨_, _, held.call count⟩
  | advance index =>
    obtain ⟨read, here, stepped⟩ := Option.bind_eq_some_iff.mp stepped
    exact held.advance here orderly stepped

/-- What the readers have is a prefix of the stream. -/
theorem Held.delivers : Delivers u where
  inOrder := by
    obtain ⟨rest, split⟩ := data_take_prefix u.requests held.within
    rw [take_length] at split
    rw [held.bytes, ← split]
    exact prefix_append _ _
  once entry := by
    have released := held.released entry
    split at released
    all_goals omega
  after entry mem := by
    have released := held.released entry
    have counted := count_pos_iff.mpr mem
    have order := held.order
    have within := held.within
    have taken : entry < consumed := by
      by_contra ahead
      rw [if_neg ahead] at released
      omega
    refine ⟨by omega, ?_⟩
    rw [held.bytes]
    exact data_take_prefix _ (by omega)
  releases quiet entry lt := by
    have released := held.released entry
    have none_holds : u.reads.countP (fun read => read.place.holding) = 0 := by
      rw [countP_eq_zero]
      intro read mem
      rcases quiet read mem with down | ⟨nread, done⟩
      · rw [down]
        exact Bool.false_ne_true
      · rw [done]
        exact Bool.false_ne_true
    have none_releases : u.reads.countP (fun read => read.place.releasing entry) = 0 := by
      rw [countP_eq_zero]
      intro read mem
      rcases quiet read mem with down | ⟨nread, done⟩
      · rw [down]
        exact Bool.false_ne_true
      · rw [done]
        exact Bool.false_ne_true
    have full := held.free none_holds
    by_cases taken : entry < consumed
    · rw [if_pos taken, none_releases] at released
      exact Or.inl (count_pos_iff.mp (by omega))
    · refine Or.inr ⟨?_, ?_⟩
      · rw [held.fifo, mem_range'_1]
        omega
      · rw [held.bytes]
        exact data_take_prefix _ (by omega)
  blocked none_left quiet := by
    have permits := held.permits
    have order := held.order
    rw [none_left, quiet, if_neg Bool.false_ne_true, held.fifo, length_range'] at permits
    rw [held.bytes]
    exact data_take_prefix _ (by omega)
  found read mem lost := by
    have at_ := held.places read mem
    rw [lost] at at_
    exact at_

end

end Steps

/-- In a run in which a read takes an entry only when no other read has one, and each read asks for all that is left of
its entry, the reads return the stream of the requests. -/
theorem gb_uart_read_delivers (actions : List Action) (final : Uart)
    (orderly : Guarded step Orderly gbUartProbe actions) (ran : run step gbUartProbe actions = some final) :
    Delivers final := by
  obtain ⟨consumed, copied, held⟩ := run_invariant_of_guarded (fun u => ∃ consumed copied, Held u consumed copied)
    ⟨0, 0, held_gbUartProbe⟩ orderly ran fun ⟨_, _, held⟩ orderly stepped => held.step orderly stepped
  exact held.delivers

/-- The steps of a read from `semaphore_down` to its return -/
def wholeRead (index : Nat) : List Action := replicate 8 (.advance index)

/-- A request of no bytes and one of three are returned by two reads, the second of which waits while the first one
runs. -/
def twoReads : List Action :=
  [.receive [0, 0], .up, .call 4, .call 3, .receive [3, 0, 7, 8, 9]] ++ wholeRead 0 ++ [.up] ++ wholeRead 1

theorem gb_uart_read_delivers_two :
    ∃ final, run step gbUartProbe twoReads = some final ∧ final.bytes = [7, 8, 9] ∧ final.released = [0, 1] ∧
      Delivers final := by
  refine exists_final (fun u => (u.bytes, u.released)) ([7, 8, 9], [0, 1]) (by decide +kernel) fun final ran same => ?_
  refine ⟨congrArg Prod.fst same, congrArg Prod.snd same, ?_⟩
  exact gb_uart_read_delivers twoReads final (by decide +kernel) ran

/-- A request of three bytes, and a read of two -/
def shortRead : List Action := [.receive [3, 0, 7, 8, 9], .up, .call 2] ++ replicate 6 (.advance 0) ++ [.call 1]

/-- Two reads take the first entry at once. -/
def sharedEntry : List Action :=
  [.receive [1, 0, 7], .up, .receive [1, 0, 8], .up, .call 1, .call 1, .advance 0, .advance 0, .advance 1, .advance 1] ++
    replicate 6 (.advance 0) ++ replicate 6 (.advance 1)

/-- After the read of two bytes the next read is blocked with a byte left. Two reads that have one entry release it
twice. -/
theorem gb_uart_read_leaves_byte :
    (∃ final, run step gbUartProbe shortRead = some final ∧ step final (.advance 1) = none ∧ ¬ Delivers final) ∧
      ∃ final, run step gbUartProbe sharedEntry = some final ∧ ¬ Delivers final := by
  refine ⟨?_, ?_⟩
  · refine exists_final (fun u => ((u.permits, u.listed), u.bytes, u.requests, u.reads))
      ((0, false), [7, 8], [[3, 0, 7, 8, 9]], [⟨2, .done 2⟩, ⟨1, .down⟩]) (by decide +kernel) fun final ran same => ?_
    simp only [Prod.mk.injEq] at same
    obtain ⟨⟨permits, listed⟩, bytes, requests, reads⟩ := same
    refine ⟨?_, ?_⟩
    · simp only [step, reads, Uart.advance, permits, getElem?_cons_succ, getElem?_cons_zero, Option.bind_some,
        if_true]
    · intro delivers
      have blocked := delivers.blocked permits listed
      rw [bytes, requests, reads] at blocked
      exact absurd blocked (by decide)
  · refine exists_final (fun u => u.released) [0, 0] (by decide +kernel) fun final ran released => ?_
    intro delivers
    have once := delivers.once 0
    rw [released] at once
    exact absurd once (by decide)

end Phabos.ApUart
