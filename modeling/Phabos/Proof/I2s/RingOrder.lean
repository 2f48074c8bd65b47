import Phabos.Library.Run
import Phabos.Proof.I2s.EntryProgress

namespace Phabos.I2s
open Ara Library Function List Option

/-- An entry from when it is handed to the driver until it goes back -/
structure Service where
  entry : ℕ
  handed : RingBuf
  moved : List Word
  returned : RingBuf

/-- What is seen of it -/
def Service.log (port : Port) (service : Service) : List Out :=
  service.moved.map Out.word ++ Out.passed service.entry service.returned ::
    if port.callback then [Out.callback service.entry port.block.complete] else []

/-- Every word of the entry was moved before it went back. -/
structure Service.Complete (port : Port) (service : Service) : Prop where
  all : 4 * service.moved.length = port.block.room service.handed
  moved : ∃ rb, port.block.Moved port.config service.handed service.moved rb 0 ∧
    service.returned = port.block.giveBack rb

/-- The entry whose turn it is after some others -/
def Port.turn (port : Port) (first count : ℕ) : ℕ := (first + count) % port.entries

/-- What was seen is one entry after the other in the order of the ring, each as the client has handed it over and with
all of its words, and some words of the entry whose turn it is. The entries that are pending belong to the driver. -/
structure Account (port : Port) (first : ℕ) (ring : ℕ → RingBuf) (seen : List Out) (given : ℕ → List RingBuf)
    (services : List Service) (part : List Word) (pending : ℕ → Option RingBuf) (i : ℕ) : Prop where
  log : seen = services.flatMap (Service.log port) ++ part.map Out.word
  complete : ∀ service ∈ services, service.Complete port
  order : services.map Service.entry = (List.range services.length).map (port.turn first)
  handed : ∀ entry < port.entries,
    given entry = (services.filter fun service => service.entry = entry).map Service.handed ++ (pending entry).toList
  ready : ∀ entry < port.entries, ∀ rb ∈ pending entry, Ready port.block rb
  idle : ∀ entry < port.entries, pending entry = none → port.block.isDrivers (ring entry) = false
  untouched : ∀ entry < port.entries, entry ≠ port.turn first services.length → ∀ rb ∈ pending entry, ring entry = rb
  moved : ∀ rb ∈ pending (port.turn first services.length),
    port.block.Moved port.config rb part (ring (port.turn first services.length)) i
  rest : pending (port.turn first services.length) = none → part = []

/-- The data interrupt of the block is not masked. -/
def Info.Unmasked (s : Info) : Prop := s.intmask &&& TSB_I2S_REG_INT_INT = 0

/-- The words that were moved are accounted for. When a run has returned and no error has occurred, the data interrupt
is unmasked exactly when the present entry belongs to the driver. -/
structure Faithful (port : Port) (first : ℕ) (s : Info) : Prop where
  account : ∃ services part pending i, Account port first s.ring s.log s.handed services part pending i
  mask : s.errors = [] → ∀ ret, s.place = .returned ret → (s.Unmasked ↔ port.block.isDrivers (s.ring s.rb) = true)

/-- The client hands over entries whose bytes are whole words. -/
def HandsWords (port : Port) (_ : Info) : Action → Prop
  | .client _ rb => port.block.isDrivers rb = true → Ready port.block rb
  | _ => True

variable {rb : RingBuf}

variable {entry : ℕ}

section Account
variable {port : Port} {first : ℕ} {ring : ℕ → RingBuf} {seen : List Out} {given : ℕ → List RingBuf}
  {services : List Service} {part : List Word} {pending : ℕ → Option RingBuf} {i : ℕ} {handed : RingBuf}

theorem Port.turn_lt (entries : 0 < port.entries) (first count : ℕ) : port.turn first count < port.entries :=
  Nat.mod_lt _ entries

theorem Port.turn_succ (port : Port) (first count : ℕ) :
    Info.getNext port (port.turn first count) = port.turn first (count + 1) :=
  Nat.mod_add_mod ..

theorem Account.pending_of_drivers (account : Account port first ring seen given services part pending i)
    (within : entry < port.entries) (drivers : port.block.isDrivers (ring entry) = true) :
    ∃ rb, pending entry = some rb := by
  cases there : pending entry with
  | some rb => exact ⟨rb, rfl⟩
  | none => exact (Bool.false_ne_true ((account.idle entry within there).symm.trans drivers)).elim

theorem Account.go (account : Account port first ring seen given services part pending i)
    (here : pending (port.turn first services.length) = some handed) (more : List Word) {i' : ℕ}
    (progress : port.block.Moved port.config handed (part ++ more) rb i') :
    Account port first (update ring (port.turn first services.length) rb) (seen ++ more.map Out.word) given
      services (part ++ more) pending i' where
  log := by rw [account.log, append_assoc, ← map_append]
  complete := account.complete
  order := account.order
  handed := account.handed
  ready := account.ready
  idle entry within none := by
    rw [update_of_ne]
    · exact account.idle entry within none
    · rintro rfl
      exact nomatch here.symm.trans none
  untouched entry within differs rb there := by
    rw [update_of_ne differs]
    exact account.untouched entry within differs rb there
  moved rb there := by
    obtain rfl := some.inj (here.symm.trans there)
    rw [update_self]
    exact progress
  rest none := nomatch here.symm.trans none

theorem giveBack_clients {block : Block} (drivers : block.isDrivers rb = true) :
    block.isDrivers (block.giveBack rb) = false := by
  cases block with
  | so =>
    have owner : rb.owner = .consumer := of_decide_eq_true drivers
    simp [Block.isDrivers, Block.giveBack, RingBuf.pass, RingBuf.reset, RingBuf.isProducers, RingBuf.isConsumers, owner]
  | si =>
    have owner : rb.owner = .producer := of_decide_eq_true drivers
    simp [Block.isDrivers, Block.giveBack, RingBuf.pass, RingBuf.isProducers, owner]

theorem Account.giveBack (account : Account port first ring seen given services part pending i)
    (entries : 0 < port.entries) (turn : entry = port.turn first services.length) (here : pending entry = some handed)
    (progress : port.block.Moved port.config handed part rb 0) (empty : port.block.room rb = 0) :
    Account port first (update ring entry (port.block.giveBack rb))
      (seen ++ Out.passed entry (port.block.giveBack rb) ::
        if port.callback then [Out.callback entry port.block.complete] else []) given
      (services ++ [⟨entry, handed, part, port.block.giveBack rb⟩]) [] (update pending entry none) 0 := by
  have within : entry < port.entries := turn ▸ Port.turn_lt entries first _
  have ready := account.ready entry within handed here
  have back := giveBack_clients (progress.isDrivers.trans ready.drivers)
  have others {other : ℕ} {rb : RingBuf} (there : rb ∈ update pending entry none other) :
      other ≠ entry ∧ pending other = some rb := by
    by_cases same : other = entry
    · subst same
      rw [update_self] at there
      exact nomatch there
    · rw [update_of_ne same] at there
      exact ⟨same, there⟩
  refine ⟨?_, ?_, ?_, ?_, ?_, ?_, ?_, ?_, fun _ => rfl⟩
  · rw [account.log, flatMap_append, flatMap_singleton, map_nil, append_nil, append_assoc]
    rfl
  · intro service there
    cases mem_append.mp there with
    | inl old => exact account.complete service old
    | inr new =>
      obtain rfl := mem_singleton.mp new
      refine ⟨?_, _, progress, rfl⟩
      have left := progress.room ready
      rw [empty] at left
      change 4 * part.length = port.block.room handed
      omega
  · rw [map_append, account.order, length_append, length_singleton, range_succ, map_append,
      turn]
    rfl
  · intro other inside
    rw [account.handed other inside, filter_append, map_append]
    by_cases same : entry = other
    · subst same
      have mine : [(⟨entry, handed, part, port.block.giveBack rb⟩ : Service)].filter
          (fun service => service.entry = entry) = [⟨entry, handed, part, port.block.giveBack rb⟩] := by simp
      rw [update_self, mine, here]
      exact (append_nil _).symm
    · rw [update_of_ne (Ne.symm same), filter_cons_of_neg (by simpa using same)]
      rw [filter_nil, map_nil, append_nil]
  · intro other inside rb there
    exact account.ready other inside rb (others there).2
  · intro other inside none
    by_cases same : other = entry
    · subst same
      rw [update_self]
      exact back
    · rw [update_of_ne same] at none ⊢
      exact account.idle other inside none
  · intro other inside _ rb there
    obtain ⟨differs, there⟩ := others there
    rw [update_of_ne differs]
    exact account.untouched other inside (turn ▸ differs) rb there
  · intro rb there
    obtain ⟨differs, there⟩ := others there
    rw [update_of_ne differs]
    rw [account.untouched _ (Port.turn_lt entries first _) (turn ▸ differs) rb there]
    exact Block.Moved.start port.config port.block rb

theorem Account.pending_of_clients (account : Account port first ring seen given services part pending i)
    (within : entry < port.entries) (clients : port.block.isDrivers (ring entry) = false) : pending entry = none := by
  cases there : pending entry with
  | none => rfl
  | some rb =>
    have drivers : port.block.isDrivers (ring entry) = true := by
      by_cases same : entry = port.turn first services.length
      · subst same
        exact (account.moved rb there).isDrivers.trans (account.ready _ within rb there).drivers
      · rw [account.untouched entry within same rb there]
        exact (account.ready entry within rb there).drivers
    exact (Bool.false_ne_true (clients.symm.trans drivers)).elim

theorem Account.client (account : Account port first ring seen given services part pending 0)
    (within : entry < port.entries) (clients : port.block.isDrivers (ring entry) = false)
    (hands : port.block.isDrivers rb = true → Ready port.block rb) :
    Account port first (update ring entry rb) seen
      (if port.block.isDrivers rb then update given entry (given entry ++ [rb]) else given) services part
      (if port.block.isDrivers rb then update pending entry (some rb) else pending) 0 := by
  have none := account.pending_of_clients within clients
  have others {other : ℕ} (differs : other ≠ entry) : update ring entry rb other = ring other :=
    update_of_ne differs ..
  cases drivers : port.block.isDrivers rb with
  | false =>
    simp only [Bool.false_eq_true, if_false]
    refine { account with idle := ?_, untouched := ?_, moved := ?_ }
    · intro other inside free
      by_cases same : other = entry
      · rw [same, update_self]
        exact drivers
      · rw [others same]
        exact account.idle other inside free
    · intro other inside differs one there
      rw [others]
      · exact account.untouched other inside differs one there
      · rintro rfl
        exact nomatch none.symm.trans there
    · intro one there
      rw [others]
      · exact account.moved one there
      · rintro same
        rw [same, none] at there
        exact nomatch there
  | true =>
    have kept {other : ℕ} (differs : other ≠ entry) : update pending entry (some rb) other = pending other :=
      update_of_ne differs ..
    simp only [if_true]
    refine ⟨account.log, account.complete, account.order, ?_, ?_, ?_, ?_, ?_, ?_⟩
    · intro other inside
      by_cases same : other = entry
      · rw [same, update_self, update_self, account.handed entry within, none]
        simp
      · rw [kept same, update_of_ne same]
        exact account.handed other inside
    · intro other inside one there
      by_cases same : other = entry
      · rw [same, update_self] at there
        obtain rfl := some.inj there
        exact hands drivers
      · rw [kept same] at there
        exact account.ready other inside one there
    · intro other inside free
      by_cases same : other = entry
      · rw [same, update_self] at free
        exact nomatch free
      · rw [kept same] at free
        rw [others same]
        exact account.idle other inside free
    · intro other inside differs one there
      by_cases same : other = entry
      · rw [same, update_self] at there ⊢
        exact some.inj there
      · rw [kept same] at there
        rw [others same]
        exact account.untouched other inside differs one there
    · intro one there
      by_cases same : port.turn first services.length = entry
      · rw [same, update_self] at there ⊢
        obtain rfl := some.inj there
        rw [account.rest (same ▸ none)]
        exact Block.Moved.start port.config port.block rb
      · rw [kept same] at there
        rw [others same]
        exact account.moved one there
    · intro free
      by_cases same : port.turn first services.length = entry
      · rw [same, update_self] at free
        exact nomatch free
      · rw [kept same] at free
        exact account.rest free

end Account

section Steps
variable {port : Port} {first : ℕ} {s next : Info}

/-- The bytes that the driver has moved in the present `for` loop -/
def Place.offset : Place → ℕ
  | .fifo i => i
  | _ => 0

/-- The words are accounted for, and the driver is at the entry whose turn it is or in the callback for the one before. -/
structure Sound (port : Port) (first : ℕ) (s : Info) : Prop where
  account : ∃ services part pending,
    Account port first s.ring s.log s.handed services part pending s.place.offset ∧
      (s.place ≠ .completed → s.rb = port.turn first services.length) ∧
        (s.place = .completed → Info.getNext port s.rb = port.turn first services.length)
  busy : ∀ i, s.place = .fifo i → port.block.isDrivers (s.ring s.rb) = true
  failed : ∀ ret, s.place = .failed ret → s.errors ≠ []
  mask : s.errors = [] → ∀ ret, s.place = .returned ret → (s.Unmasked ↔ port.block.isDrivers (s.ring s.rb) = true)

/-- The words of a sound port are those of the ring buffers. -/
theorem Sound.faithful (sound : Sound port first s) : Faithful port first s := by
  obtain ⟨services, part, pending, account, -⟩ := sound.account
  exact ⟨⟨services, part, pending, _, account⟩, sound.mask⟩

theorem maskIrqs_masked (s : Info) : ¬(s.maskIrqs TSB_I2S_REG_INT_INT).Unmasked := by
  intro unmasked
  have bit := congrArg (fun mask : Word => mask.getLsbD 0) unmasked
  simp [Info.maskIrqs, TSB_I2S_REG_INT_INT] at bit

theorem unmaskIrqs_unmasked (s : Info) : (s.unmaskIrqs TSB_I2S_REG_INT_INT).Unmasked := by
  change s.intmask &&& ~~~TSB_I2S_REG_INT_INT &&& TSB_I2S_REG_INT_INT = 0
  rw [BitVec.and_assoc]
  exact BitVec.and_zero

section
variable (sound : Sound port first s) (place : s.place.offset = 0) (here : s.place ≠ .completed)
include sound place here

theorem Sound.loop : Sound port first { s with place := .loop } := by
  obtain ⟨services, part, pending, account, at', -⟩ := sound.account
  rw [place] at account
  exact ⟨⟨services, part, pending, account, fun _ => at' here, nofun⟩, nofun, nofun, fun _ => nofun⟩

theorem Sound.finish (ret : Int) (clients : s.errors = [] → port.block.isDrivers (s.ring s.rb) = false) :
    Sound port first (s.finish ret) := by
  obtain ⟨services, part, pending, account, at', -⟩ := sound.account
  rw [place] at account
  refine ⟨⟨services, part, pending, account, fun _ => at' here, nofun⟩, nofun, nofun, fun right _ _ => ?_⟩
  refine iff_of_false (maskIrqs_masked s) ?_
  change ¬port.block.isDrivers (s.ring s.rb) = true
  rw [clients right]
  exact Bool.false_ne_true

theorem Sound.fail (event : Event) (ret : Int) : Sound port first (s.fail port event ret) := by
  obtain ⟨services, part, pending, account, at', -⟩ := sound.account
  rw [place] at account
  have some_error : (s.stop event).errors ≠ [] := append_ne_nil_of_right_ne_nil _ (cons_ne_nil _ _)
  unfold Info.fail
  split
  · exact ⟨⟨services, part, pending, account, fun _ => at' here, nofun⟩, nofun, fun _ _ => some_error, fun _ => nofun⟩
  · exact ⟨⟨services, part, pending, account, fun _ => at' here, nofun⟩, nofun, nofun,
      fun right => (some_error right).elim⟩

end

/-- The driver is in the `for` loop of an entry that it was handed. -/
structure Sound.InFifo (port : Port) (first : ℕ) (s : Info) (i : ℕ) (services : List Service) (part : List Word)
    (pending : ℕ → Option RingBuf) (handed : RingBuf) : Prop where
  account : Account port first s.ring s.log s.handed services part pending i
  here : s.rb = port.turn first services.length
  pending : pending (port.turn first services.length) = some handed
  ready : Ready port.block handed
  progress : port.block.Moved port.config handed part (s.ring s.rb) i

section
variable (sound : Sound port first s) (entries : 0 < port.entries) {i : ℕ} (place : s.place = .fifo i)
include sound entries place

theorem Sound.inFifo : ∃ services part pending handed, Sound.InFifo port first s i services part pending handed := by
  obtain ⟨services, part, pending, account, at', -⟩ := sound.account
  have here := at' (by rw [place]; exact nofun)
  have drivers := sound.busy i place
  rw [place] at account
  have within := Port.turn_lt entries first services.length
  obtain ⟨handed, there⟩ := account.pending_of_drivers within (here ▸ drivers)
  exact ⟨services, part, pending, handed, account, here, there, account.ready _ within handed there,
    here ▸ account.moved handed there⟩

theorem Sound.advance :
    Sound port first { s.setEntry s.rb (port.block.advance (s.ring s.rb) i) with place := .away } := by
  obtain ⟨services, part, pending, handed, inside⟩ := sound.inFifo entries place
  have progress : port.block.Moved port.config handed (part ++ []) (port.block.advance (s.ring s.rb) i) 0 := by
    rw [append_nil]
    exact inside.progress.advance
  have gone := inside.account.go inside.pending [] progress
  rw [append_nil, ← inside.here, map_nil, append_nil] at gone
  exact ⟨⟨services, part, pending, gone, fun _ => inside.here, nofun⟩, nofun, nofun, fun _ => nofun⟩

theorem Sound.afterFifo : Sound port first (s.afterFifo port i) := by
  have advanced := sound.advance entries place
  obtain ⟨services, part, pending, handed, inside⟩ := sound.inFifo entries place
  have progress := inside.progress.advance
  have here := inside.here
  unfold Info.afterFifo
  dsimp only
  split
  · obtain ⟨services, part, pending, account, at', -⟩ := advanced.account
    refine ⟨⟨services, part, pending, account, fun _ => at' nofun, nofun⟩, nofun, nofun, fun _ _ _ => ?_⟩
    refine iff_of_true (unmaskIrqs_unmasked _) ?_
    change port.block.isDrivers (update s.ring s.rb (port.block.advance (s.ring s.rb) i) s.rb) = true
    rw [update_self]
    exact progress.isDrivers.trans inside.ready.drivers
  · rename_i empty
    have back := inside.account.giveBack entries here (here ▸ inside.pending) progress
      ((port.block.isDone_iff _).mp (Bool.eq_true_of_not_eq_false empty))
    have count : (services ++ [⟨s.rb, handed, part, port.block.giveBack (port.block.advance (s.ring s.rb) i)⟩] :
        List Service).length = services.length + 1 := by
      rw [length_append, length_singleton]
    have later : Info.getNext port s.rb = port.turn first (services.length + 1) := by
      rw [here]
      exact port.turn_succ first _
    rw [← count] at later
    split
    · rename_i callback
      rw [if_pos callback, append_cons s.log] at back
      exact ⟨⟨_, _, _, back, fun differs => (differs rfl).elim, fun _ => later⟩, nofun, nofun, fun _ => nofun⟩
    · rename_i callback
      rw [if_neg callback] at back
      exact ⟨⟨_, _, _, back, fun _ => later, nofun⟩, nofun, nofun, fun _ => nofun⟩

end

theorem Sound.fifoTurn (sound : Sound port first s) (entries : 0 < port.entries)
    (conversion : ∀ w, tsbI2sFifoData port.config w = port.config.converted w) {i : ℕ} (place : s.place = .fifo i)
    (more : i < port.block.room (s.ring s.rb)) (intstat fifo : Word) :
    Sound port first (s.fifoTurn port i intstat fifo) := by
  unfold Info.fifoTurn
  split
  · exact (sound.advance entries place).fail rfl nofun _ _
  · split
    · exact sound.afterFifo entries place
    · obtain ⟨services, part, pending, handed, inside⟩ := sound.inFifo entries place
      have progress := inside.progress.word inside.ready conversion more fifo
      have gone := inside.account.go inside.pending [_] progress
      rw [← inside.here] at gone
      refine ⟨⟨services, _, pending, gone, fun _ => inside.here, nofun⟩, fun _ _ => ?_, nofun, fun _ => nofun⟩
      change port.block.isDrivers (update s.ring s.rb _ s.rb) = true
      rw [update_self]
      exact progress.isDrivers.trans inside.ready.drivers

theorem Sound.dataTurn (sound : Sound port first s) (place : s.place = .loop) :
    Sound port first (s.dataTurn port) := by
  have offset : s.place.offset = 0 := by rw [place]; rfl
  have differs : s.place ≠ .completed := by rw [place]; exact nofun
  unfold Info.dataTurn
  split
  · rename_i drivers
    split
    · exact sound.fail offset differs _ _
    · obtain ⟨services, part, pending, account, at', -⟩ := sound.account
      rw [offset] at account
      exact ⟨⟨services, part, pending, account, fun _ => at' differs, nofun⟩, fun _ _ => drivers, nofun, fun _ => nofun⟩
  · rename_i clients
    exact sound.finish offset differs 0 fun _ => Bool.eq_false_iff.mpr clients

theorem Sound.client (sound : Sound port first s) (runs : s.place.isClients = true) (within : entry < port.entries)
    (clients : port.block.isDrivers (s.ring entry) = false)
    (hands : port.block.isDrivers rb = true → Ready port.block rb) :
    Sound port first { s.setEntry entry rb with
      place := s.place.afterClient
      handed := if port.block.isDrivers rb then
        update s.handed entry (s.handed entry ++ [rb]) else s.handed } := by
  obtain ⟨services, part, pending, account, at', before⟩ := sound.account
  have offset : s.place.offset = 0 := by
    cases place : s.place with
    | fifo => exact nomatch (place ▸ runs : Place.isClients (.fifo _) = true)
    | _ => rfl
  rw [offset] at account
  have changed := account.client within clients hands
  cases place : s.place with
  | loop => exact nomatch (place ▸ runs : Place.isClients .loop = true)
  | fifo => exact nomatch (place ▸ runs : Place.isClients (.fifo _) = true)
  | completed =>
    exact ⟨⟨services, part, _, changed, fun differs => (differs rfl).elim, fun _ => before place⟩, nofun, nofun,
      fun _ => nofun⟩
  | failed ret =>
    have kept : s.place ≠ .completed := by rw [place]; exact nofun
    exact ⟨⟨services, part, _, changed, fun _ => at' kept, nofun⟩, nofun, fun _ _ => sound.failed ret place,
      fun _ => nofun⟩
  | away | returned =>
    have kept : s.place ≠ .completed := by rw [place]; exact nofun
    exact ⟨⟨services, part, _, changed, fun _ => at' kept, nofun⟩, nofun, nofun, fun _ => nofun⟩

theorem Place.isAway_offset {place : Place} (away : place.isAway = true) : place.offset = 0 ∧ place ≠ .completed := by
  cases place with
  | away => exact ⟨rfl, nofun⟩
  | returned => exact ⟨rfl, nofun⟩
  | loop => cases away
  | fifo => cases away
  | completed => cases away
  | failed => cases away

/-- A step keeps the words in the order of the ring. -/
theorem Sound.step (sound : Sound port first s) (entries : 0 < port.entries)
    (conversion : ∀ w, tsbI2sFifoData port.config w = port.config.converted w) {action : Action}
    (hands : HandsWords port s action) (stepped : step port s action = some next) : Sound port first next := by
  cases action with
  | call =>
    obtain ⟨away, rfl⟩ := ite_some_none_eq_some.mp stepped
    exact sound.loop (Place.isAway_offset away).1 (Place.isAway_offset away).2
  | interrupt intstat =>
    obtain ⟨away, rfl⟩ := ite_some_none_eq_some.mp stepped
    unfold Info.irqHandler
    split
    · exact sound.loop (Place.isAway_offset away).1 (Place.isAway_offset away).2
    · exact sound
  | errorInterrupt intstat =>
    obtain ⟨away, rfl⟩ := ite_some_none_eq_some.mp stepped
    unfold Info.irqErrHandler
    split
    · exact sound
    · obtain ⟨services, part, pending, account, at', -⟩ := sound.account
      rw [(Place.isAway_offset away).1] at account
      exact ⟨⟨services, part, pending, account, fun _ => at' (Place.isAway_offset away).2, nofun⟩, nofun, nofun,
        fun _ => nofun⟩
  | proceed =>
    simp only [I2s.step] at stepped
    split at stepped
    · rename_i place
      have same : s.dataTurn port = next := by
        revert stepped
        cases port with
        | mk block config entries callback => cases block <;> exact some.inj
      subst same
      exact sound.dataTurn place
    · rename_i i place
      obtain ⟨-, same⟩ := ite_none_left_eq_some.mp stepped
      obtain rfl := some.inj same
      exact sound.afterFifo entries place
    · cases stepped
  | reading intstat fifo =>
    simp only [I2s.step] at stepped
    split at stepped
    · rename_i i place
      obtain ⟨more, turned⟩ := ite_none_right_eq_some.mp stepped
      have same : s.fifoTurn port i intstat fifo = next := by
        revert turned
        cases port with
        | mk block config entries callback => cases block <;> exact some.inj
      subst same
      exact sound.fifoTurn entries conversion place more intstat fifo
    · cases stepped
  | client entry rb =>
    obtain ⟨⟨runs, within, clients⟩, rfl⟩ := ite_some_none_eq_some.mp stepped
    exact sound.client runs within clients hands
  | callbackReturns =>
    simp only [I2s.step] at stepped
    split at stepped
    · rename_i place
      obtain rfl := some.inj stepped
      obtain ⟨services, part, pending, account, -, before⟩ := sound.account
      rw [place] at account
      exact ⟨⟨services, part, pending, account, fun _ => before place, nofun⟩, nofun, nofun, fun _ => nofun⟩
    · rename_i ret place
      obtain rfl := some.inj stepped
      have offset : s.place.offset = 0 := by rw [place]; rfl
      exact sound.finish offset (by rw [place]; exact nofun) ret fun right => (sound.failed ret place right).elim
    · cases stepped

theorem Sound.start {ring : ℕ → RingBuf} (within : first < port.entries)
    (ready : ∀ entry < port.entries, port.block.isDrivers (ring entry) = true → Ready port.block (ring entry))
    (intmask : Word) : Sound port first (Info.start port ring first intmask) := by
  have turn : port.turn first 0 = first := Nat.mod_eq_of_lt within
  let pending : ℕ → Option RingBuf := fun entry => if port.block.isDrivers (ring entry) then some (ring entry) else none
  have same {entry : ℕ} {rb : RingBuf} (there : rb ∈ pending entry) :
      port.block.isDrivers (ring entry) = true ∧ ring entry = rb := by
    obtain ⟨drivers, same⟩ := ite_none_right_eq_some.mp there
    exact ⟨drivers, some.inj same⟩
  refine ⟨⟨[], [], pending, ⟨rfl, nofun, rfl, ?_, ?_, ?_, ?_, ?_, fun _ => rfl⟩, fun _ => turn.symm, nofun⟩, nofun,
    nofun, fun _ => nofun⟩
  · intro entry _
    change (if port.block.isDrivers (ring entry) then [ring entry] else []) = [] ++ (pending entry).toList
    by_cases drivers : port.block.isDrivers (ring entry) = true
    · simp only [pending, if_pos drivers]
      rfl
    · simp only [pending, if_neg drivers]
      rfl
  · intro entry inside rb there
    obtain ⟨drivers, rfl⟩ := same there
    exact ready entry inside drivers
  · intro entry _ free
    by_contra drivers
    exact nomatch (if_pos (Bool.not_eq_false _ ▸ drivers)).symm.trans free
  · intro entry _ _ rb there
    exact (same there).2
  · intro rb there
    rw [← (same there).2]
    exact Block.Moved.start port.config port.block _

end Steps

/-- An entry with one word -/
def oneWord : RingBuf := ⟨.consumer, 0, 4, 0, 4, fun address => UInt8.ofNat (address + 1)⟩

theorem oneWord_ready : Ready .so oneWord := ⟨rfl, by decide, by decide, by decide, by decide⟩

theorem words_oneWord : words oneWord = [0x04030201] := by decide

/-- A ring of one entry that sends big-endian samples of two bytes -/
def lossyPort : Port := ⟨.so, ⟨.be, 2⟩, 1, true⟩

/-- A run of `tsb_i2s_tx_data` up to its first word -/
def firstWord : List Action := [.call, .proceed, .reading 1 0]

theorem not_faithful_of_word {final : Info} (sent : final.log = [Out.word 0]) (given : final.handed 0 = [oneWord]) :
    ¬Faithful lossyPort 0 final := by
  intro faithful
  obtain ⟨services, part, pending, i, account⟩ := faithful.account
  have log := account.log
  rw [sent] at log
  cases services with
  | cons service rest =>
    have there : Out.passed service.entry service.returned ∈ [Out.word 0] := by
      rw [log]
      simp [Service.log]
    cases mem_singleton.mp there
  | nil =>
    have one : part = [0] := by
      have injective : Function.Injective Out.word := fun _ _ same => Out.word.inj same
      have log : [0].map Out.word = part.map Out.word := log
      exact (injective.list_map log).symm
    have handed := account.handed 0 Nat.one_pos
    rw [given] at handed
    have there : pending 0 = some oneWord := by
      cases here : pending 0 with
      | none =>
        rw [here] at handed
        exact nomatch handed
      | some rb =>
        rw [here] at handed
        exact congrArg some (cons.inj handed).1.symm
    have moved : [0] <+: (words oneWord).map lossyPort.config.converted := one ▸ (account.moved oneWord there).1
    rw [words_oneWord] at moved
    revert moved
    decide

theorem lossyPort_sends : ∃ final, run (step lossyPort) (Info.start lossyPort (fun _ => oneWord) 0 1) firstWord =
    some final ∧ final.log = [Out.word 0] ∧ final.handed 0 = [oneWord] := by
  refine ⟨_, rfl, ?_, rfl⟩
  have lost : tsbI2sFifoData lossyPort.config (le32 (ByteMemory.read oneWord.bytes 0 4)) = 0 :=
    tsbI2sFifoData_lost rfl rfl _
  exact congrArg (fun w => [Out.word w]) lost

theorem lossyPort_hands : Guarded (step lossyPort) (HandsWords lossyPort) (Info.start lossyPort (fun _ => oneWord) 0 1)
    firstWord := by
  refine Guarded.of_forall fun action there _ => ?_
  simp only [firstWord, mem_cons, not_mem_nil, or_false] at there
  obtain rfl | rfl | rfl := there <;> trivial

/-- For each supported configuration, all rings, readings, interrupts and clients find the words moved in order, each
converted, with each entry given back once, exactly when the samples are not big-endian with two bytes. -/
theorem fifo_data_path (config : Config) (supported : config.Supported) :
    (∀ (port : Port) (ring : ℕ → RingBuf) (first : ℕ) (intmask : Word) (actions : List Action) (final : Info),
      port.config = config → first < port.entries →
      (∀ entry < port.entries, port.block.isDrivers (ring entry) = true → Ready port.block (ring entry)) →
      Guarded (step port) (HandsWords port) (Info.start port ring first intmask) actions →
      run (step port) (Info.start port ring first intmask) actions = some final → Faithful port first final) ↔
    ¬(config.byteOrder = .be ∧ config.bytesPerChannel = 2) := by
  constructor
  · rintro all ⟨big, two⟩
    have same : lossyPort.config = config := by
      cases config
      obtain rfl := big
      obtain rfl := two
      rfl
    obtain ⟨final, ran, sent, given⟩ := lossyPort_sends
    refine not_faithful_of_word sent given ?_
    exact all lossyPort (fun _ => oneWord) 0 1 _ _ same Nat.one_pos (fun _ _ _ => oneWord_ready) lossyPort_hands ran
  · intro right port ring first intmask actions final same within ready hands ran
    obtain rfl := same
    have conversion := tsbI2sFifoData_eq port.config supported right
    have sound := run_invariant_of_guarded (Sound port first) (Sound.start within ready intmask) hands ran fun sound =>
      sound.step (Nat.zero_lt_of_lt within) conversion
    exact sound.faithful

/-- A ring of one entry that sends big-endian samples of four bytes -/
def wordPort : Port := ⟨.so, ⟨.be, 4⟩, 1, true⟩

/-- A run of `tsb_i2s_tx_data` that sends the entry -/
def sendWord : List Action := [.call, .proceed, .reading 1 0, .proceed, .callbackReturns, .proceed]

theorem fifo_data_path_sendWord :
    ∃ final, run (step wordPort) (Info.start wordPort (fun _ => oneWord) 0 1) sendWord = some final ∧
      Faithful wordPort 0 final ∧ final.place = .returned 0 := by
  refine ⟨_, rfl, (fifo_data_path ⟨.be, 4⟩ (by decide)).mpr (by decide) wordPort (fun _ => oneWord) 0 1 sendWord _ rfl
    Nat.one_pos (fun _ _ _ => oneWord_ready) ?_ rfl, rfl⟩
  refine Guarded.of_forall fun action there _ => ?_
  simp only [sendWord, List.mem_cons, List.not_mem_nil, or_false] at there
  obtain rfl | rfl | rfl | rfl | rfl | rfl := there <;> trivial

/-- A word of two big-endian samples is sent as zero. -/
theorem fifo_data_path_loses_word :
    lossyPort.config.Supported ∧
      Guarded (step lossyPort) (HandsWords lossyPort) (Info.start lossyPort (fun _ => oneWord) 0 1) firstWord ∧
        ∃ final, run (step lossyPort) (Info.start lossyPort (fun _ => oneWord) 0 1) firstWord = some final ∧
          final.log = [Out.word 0] ∧ ¬Faithful lossyPort 0 final := by
  obtain ⟨final, ran, sent, given⟩ := lossyPort_sends
  exact ⟨by decide, lossyPort_hands, final, ran, sent, not_faithful_of_word sent given⟩

end Phabos.I2s
