import Phabos.Construction.Usb.ToHost

namespace Phabos.ApBridge.ToHost
open Library UsbHop ApBridge Function List Option

/-- The requests of this kind that no list has, but an endpoint or a function that runs -/
def Counted (s : Bridge) (hand : ReqList → List ℕ) : Prop :=
  ∀ list : ReqList, list.Writes →
    (s.pool.queue list ++ s.flying list ++ hand list).Perm (usbclassBind.queue list)

/-- A request in hand besides those -/
def withHand (ep req : ℕ) (hand : ReqList → List ℕ) (list : ReqList) : List ℕ :=
  if epnoToReqList ep = list then req :: hand list else hand list

section Counted
variable {s s' : Bridge} {hand : ReqList → List ℕ} {ep req : ℕ}

theorem flying_cons (s : Bridge) (transfer : Transfer) (others : List Transfer) (list : ReqList) :
    Bridge.flying { s with inFlight := transfer :: others } list =
      withHand transfer.ep transfer.req (Bridge.flying { s with inFlight := others }) list := by
  unfold Bridge.flying withHand
  change map _ (filter _ (transfer :: others)) = _
  rw [filter_cons]
  by_cases same : epnoToReqList transfer.ep = list
  · rw [if_pos same, if_pos (decide_eq_true same), map_cons]
  · rw [if_neg same, if_neg (by rwa [decide_eq_true_iff])]

theorem flying_append (s : Bridge) (transfer : Transfer) (list : ReqList) :
    Bridge.flying { s with inFlight := s.inFlight ++ [transfer] } list =
      s.flying list ++ if epnoToReqList transfer.ep = list then [transfer.req] else [] := by
  have last := flying_cons s transfer [] list
  unfold Bridge.flying withHand at *
  rw [filter_append, map_append, last]
  rfl

theorem flying_erase (s : Bridge) {transfer : Transfer} (inside : transfer ∈ s.inFlight) (list : ReqList) :
    (s.flying list).Perm (withHand transfer.ep transfer.req
      (Bridge.flying { s with inFlight := s.inFlight.erase transfer }) list) := by
  rw [← flying_cons]
  unfold Bridge.flying
  exact ((perm_cons_erase inside).filter _).map _

theorem Counted.submit (counted : Counted s (withHand ep req hand)) (transfer : Transfer) (at_ep : transfer.ep = ep)
    (same : transfer.req = req) (queues : s'.pool.queue = s.pool.queue)
    (given : s'.inFlight = s.inFlight ++ [transfer]) : Counted s' hand := by
  intro list writes
  have flown : s'.flying list = s.flying list ++ if epnoToReqList ep = list then [req] else [] := by
    rw [← at_ep, ← same, ← flying_append]
    unfold Bridge.flying
    rw [given]
  have before := counted list writes
  rw [queues, flown]
  refine List.Perm.trans ?_ before
  unfold withHand
  split
  · rw [append_assoc, append_assoc, append_assoc]
    rfl
  · rw [append_nil]

theorem Counted.complete (counted : Counted s hand) {transfer : Transfer} (inside : transfer ∈ s.inFlight) :
    Counted { s with inFlight := s.inFlight.erase transfer } (withHand transfer.ep transfer.req hand) := by
  intro list writes
  refine List.Perm.trans ?_ (counted list writes)
  have moved := flying_erase s inside list
  unfold withHand at *
  rw [append_assoc, append_assoc]
  refine List.Perm.append_left _ ?_
  split
  · rename_i same
    rw [if_pos same] at moved
    exact perm_middle.trans (moved.symm.append_right (hand list))
  · rename_i other
    rw [if_neg other] at moved
    exact moved.symm.append_right (hand list)

theorem Counted.take (counted : Counted s hand) {list : ReqList} (here : epnoToReqList ep = list)
    {rest : List ℕ} (stocked : s.pool.queue list = req :: rest)
    (queues : s'.pool.queue = update s.pool.queue list rest) (flights : s'.inFlight = s.inFlight) :
    Counted s' (withHand ep req hand) := by
  intro other writes
  have flown : s'.flying other = s.flying other := by
    unfold Bridge.flying
    rw [flights]
  refine List.Perm.trans ?_ (counted other writes)
  rw [queues, flown]
  unfold withHand
  by_cases same : other = list
  · rw [same, update_self, if_pos here, stocked, append_assoc, append_assoc, cons_append,
      ← append_assoc]
    refine perm_middle.trans (List.Perm.cons _ ?_)
    rw [append_assoc]
  · rw [update_of_ne same, if_neg fun equal => same (equal.symm.trans here)]

theorem Counted.put (counted : Counted s (withHand ep req hand)) :
    Counted { s with pool := putRequest s.pool (epnoToReqList ep) req } hand := by
  intro list writes
  refine List.Perm.trans ?_ (counted list writes)
  unfold withHand putRequest
  change (update s.pool.queue _ _ list ++ s.flying list ++ hand list).Perm _
  by_cases same : list = epnoToReqList ep
  · rw [same, update_self, if_pos rfl, append_assoc, append_assoc, append_assoc]
    rw [singleton_append]
    exact List.Perm.append_left _ perm_middle.symm
  · rw [update_of_ne same, if_neg fun equal => same equal.symm]

end Counted

/-- No message for the interrupt endpoint waits. -/
def Quiet (s : Bridge) : Prop := ∀ info ∈ s.msgQueue, epnoToReqList info.ep ≠ .intreq

/-- What is known where the task is -/
def Bridge.At (s : Bridge) (call : Call) : Prop :=
  call.len ≤ apbridgeEpintinMxpacket ∧
    match call.place with
    | .isEmpty => True
    | .next => s.pool.queue .intreq ≠ []
    | .del req => ∃ rest, s.pool.queue .intreq = req :: rest
    | .memcpy _ => Quiet s
    | .submit _ bytes => Quiet s ∧ bytes = s.bytes call.buf call.len
    | .malloc | .add => s.pool.queue .intreq = []

/-- The requests are where they belong, with these in hand, and were long enough for what they carried. -/
structure Flows (s : Bridge) (hand : ReqList → List ℕ) : Prop where
  sizes : s.pool.size = usbclassBind.size
  fits : ∀ transfer ∈ s.submitted, transfer.bytes.length ≤ s.pool.size transfer.req
  counted : Counted s hand
  routed : ∀ transfer ∈ s.inFlight, (epnoToReqList transfer.ep).Writes

structure Sound (s : Bridge) : Prop where
  inOrder : SameLanes Packet.ep s.accepted (s.submitted.map Transfer.packet ++ s.msgQueue.map s.packet)
  flows : Flows s s.held
  waiting : ∀ info ∈ s.msgQueue, (epnoToReqList info.ep).Writes ∧
    info.len ≤ (epnoToReqList info.ep).bufferSize ∧ s.pool.queue (epnoToReqList info.ep) = []
  calling : ∀ call ∈ s.call, s.At call

theorem bound_requests (list : ReqList) (req : ℕ) (inside : req ∈ usbclassBind.queue list) :
    usbclassBind.size req = list.bufferSize := by
  cases list <;> revert req <;> decide

theorem Bridge.bytes_length (s : Bridge) (buf len : ℕ) : (s.bytes buf len).length = len := by
  unfold Bridge.bytes
  rw [length_map, length_range]

/-- The bridge is sound when it is bound. -/
theorem Sound.bound (cportToEpin : ℕ → ℕ) (payload : ℕ → ℕ → UInt8) : Sound (.bound cportToEpin payload) where
  inOrder := SameLanes.refl _ _
  flows := by
    refine ⟨rfl, nofun, fun list _ => ?_, nofun⟩
    change (usbclassBind.queue list ++ [] ++ []).Perm _
    rw [append_nil, append_nil]
  waiting := nofun
  calling := nofun

section Step
variable {s s' : Bridge} {hand : ReqList → List ℕ} {ep req buf len : ℕ} {bytes : List UInt8}

theorem toUsbSubmit_zero (s : Bridge) (buf ep req : ℕ) (bytes : List UInt8) :
    ∃ unpaused, toUsbSubmit s buf ep req bytes 0 = (0, { s with
      unpaused := unpaused
      inFlight := s.inFlight ++ [⟨ep, req, bytes⟩]
      submitted := s.submitted ++ [⟨ep, req, bytes⟩] }) := by
  unfold toUsbSubmit
  split
  · exact ⟨_, rfl⟩
  · exact ⟨_, rfl⟩

theorem Flows.size (flows : Flows s (withHand ep req hand)) (writes : (epnoToReqList ep).Writes) :
    s.pool.size req = (epnoToReqList ep).bufferSize := by
  rw [flows.sizes]
  apply bound_requests
  apply (flows.counted _ writes).mem_iff.mp
  unfold withHand
  rw [if_pos rfl]
  exact mem_append_right _ mem_cons_self

theorem Flows.frame (flows : Flows s hand) (pool : s'.pool = s.pool) (flights : s'.inFlight = s.inFlight)
    (submitted : s'.submitted = s.submitted) : Flows s' hand where
  sizes := pool ▸ flows.sizes
  fits := by
    rw [pool, submitted]
    exact flows.fits
  counted := by
    intro list writes
    unfold Bridge.flying
    rw [pool, flights]
    exact flows.counted list writes
  routed := flights ▸ flows.routed

theorem Flows.submit (flows : Flows s (withHand ep req hand)) (writes : (epnoToReqList ep).Writes)
    (short : bytes.length ≤ (epnoToReqList ep).bufferSize) (pool : s'.pool = s.pool)
    (flights : s'.inFlight = s.inFlight ++ [⟨ep, req, bytes⟩])
    (submitted : s'.submitted = s.submitted ++ [⟨ep, req, bytes⟩]) : Flows s' hand where
  sizes := pool ▸ flows.sizes
  fits := by
    intro transfer inside
    rw [pool]
    rw [submitted] at inside
    cases mem_append.mp inside with
    | inl before => exact flows.fits transfer before
    | inr new =>
      obtain rfl := mem_singleton.mp new
      exact short.trans_eq (flows.size writes).symm
  counted := flows.counted.submit _ rfl rfl (congrArg Pool.queue pool) flights
  routed := by
    intro transfer inside
    rw [flights] at inside
    cases mem_append.mp inside with
    | inl before => exact flows.routed transfer before
    | inr new =>
      obtain rfl := mem_singleton.mp new
      exact writes

variable {call : Call}

/-- A place of the task is left alone by what does not touch its list, its payload or the messages for its endpoint. -/
theorem Bridge.At.frame (here : s.At call) (queues : s'.pool.queue .intreq = s.pool.queue .intreq)
    (fewer : Quiet s → Quiet s') (payload : s'.bytes call.buf call.len = s.bytes call.buf call.len) :
    s'.At call := by
  obtain ⟨short, here⟩ := here
  refine ⟨short, ?_⟩
  cases place : call.place with rw [place] at here
  | isEmpty => trivial
  | next | del req => rwa [queues]
  | memcpy req => exact fewer here
  | submit req given => exact ⟨fewer here.1, here.2.trans payload.symm⟩
  | malloc | add => exact queues.trans here

theorem Bridge.At.put (here : s.At call) (req : ℕ) (kind : epnoToReqList ep = .intreq) (found : ¬call.place.Missed) :
    Bridge.At { s with pool := putRequest s.pool (epnoToReqList ep) req } call := by
  obtain ⟨short, here⟩ := here
  have longer : (putRequest s.pool (epnoToReqList ep) req).queue .intreq = s.pool.queue .intreq ++ [req] := by
    rw [kind]
    exact update_self ReqList.intreq _ s.pool.queue
  refine ⟨short, ?_⟩
  cases place : call.place with rw [place] at here
  | isEmpty => trivial
  | next =>
    change (putRequest s.pool _ req).queue .intreq ≠ []
    rw [longer]
    exact append_ne_nil_of_right_ne_nil _ (cons_ne_nil _ _)
  | del first =>
    obtain ⟨rest, stocked⟩ := here
    refine ⟨rest ++ [req], ?_⟩
    change (putRequest s.pool _ req).queue .intreq = _
    rw [longer, stocked, cons_append]
  | memcpy other => exact here
  | submit other given => exact here
  | malloc => exact absurd (Or.inl place) found
  | add => exact absurd (Or.inr place) found

/-- A message may be submitted before the queued ones of other endpoints. -/
theorem Sound.overtake (sound : Sound s) (others : ∀ info ∈ s.msgQueue, info.ep ≠ ep) :
    SameLanes Packet.ep (s.accepted ++ [⟨ep, bytes⟩])
      ((s.submitted ++ [(⟨ep, req, bytes⟩ : Transfer)]).map Transfer.packet ++ s.msgQueue.map s.packet) := by
  rw [map_append, append_assoc]
  apply sound.inOrder.insert
  intro packet inside
  obtain ⟨info, waits, rfl⟩ := mem_map.mp inside
  exact others info waits

/-- A message that finds no request waits behind the others. -/
theorem Sound.queued (sound : Sound s) (writes : (epnoToReqList ep).Writes)
    (short : len ≤ (epnoToReqList ep).bufferSize) (empty : s.pool.queue (epnoToReqList ep) = [])
    (apart : epnoToReqList ep = .intreq → s.call = none) :
    Sound { s with
      msgQueue := s.msgQueue ++ [⟨ep, buf, len⟩]
      accepted := s.accepted ++ [⟨ep, s.bytes buf len⟩] } := by
  refine ⟨?_, sound.flows.frame rfl rfl rfl, ?_, ?_⟩
  · change SameLanes _ (s.accepted ++ [_]) (_ ++ (s.msgQueue ++ [_]).map s.packet)
    rw [map_append, ← append_assoc]
    exact sound.inOrder.append_right _
  · intro info inside
    cases mem_append.mp inside with
    | inl before => exact sound.waiting info before
    | inr new =>
      obtain rfl := mem_singleton.mp new
      exact ⟨writes, short, empty⟩
  · intro call inside
    refine (sound.calling call inside).frame rfl (fun quiet info waits => ?_) rfl
    cases mem_append.mp waits with
    | inl before => exact quiet info before
    | inr new =>
      obtain rfl := mem_singleton.mp new
      intro same
      change call ∈ s.call at inside
      rw [apart same] at inside
      cases inside

/-- `to_usb` submits or queues a routed message. -/
theorem Sound.toUsb (sound : Sound s) {epno : ℕ} {malloc : Bool} {status : Int} (routed : Routed s epno len)
    (accepts : s.pool.queue (epnoToReqList epno) ≠ [] → status = 0) :
    Sound (returned buf len (usbEpno epno) (toUsb s buf len epno malloc status)) := by
  obtain ⟨writes, kind, -, short, apart⟩ := routed
  unfold ToHost.toUsb getRequest
  cases queue : s.pool.queue (epnoToReqList epno) with
  | nil =>
    unfold apbridgeQueue
    cases malloc with
    | false => exact sound
    | true =>
      have apart' := kind ▸ apart
      exact sound.queued (kind ▸ writes) (kind ▸ short) (kind ▸ queue) apart'
  | cons req rest =>
    obtain rfl := accepts (queue ▸ cons_ne_nil req rest)
    obtain ⟨unpaused, submitted⟩ := toUsbSubmit_zero
      { s with pool := { s.pool with queue := update s.pool.queue (epnoToReqList epno) rest } } buf
      (usbEpno epno) req (s.bytes buf len)
    change Sound (returned buf len (usbEpno epno) (toUsbSubmit _ buf _ req _ 0))
    rw [submitted]
    have inHand : Flows
        { s with pool := { s.pool with queue := update s.pool.queue (epnoToReqList epno) rest } }
        (withHand (usbEpno epno) req s.held) :=
      { sound.flows with counted := sound.flows.counted.take kind queue rfl rfl }
    refine ⟨?_, ?_, ?_, ?_⟩
    · refine sound.overtake fun info waits same => ?_
      have empty := (sound.waiting info waits).2.2
      rw [same, kind, queue] at empty
      cases empty
    · refine inHand.submit (kind ▸ writes) ?_ rfl rfl rfl
      rwa [Bridge.bytes_length, kind]
    · intro info inside
      obtain ⟨toHost, fits, empty⟩ := sound.waiting info inside
      refine ⟨toHost, fits, ?_⟩
      change update s.pool.queue _ rest _ = []
      rw [update_of_ne, empty]
      intro same
      rw [same, queue] at empty
      cases empty
    · intro call inside
      refine (sound.calling call inside).frame ?_ id rfl
      apply update_of_ne
      intro same
      have idle := apart same.symm
      change call ∈ s.call at inside
      rw [idle] at inside
      cases inside

/-- A completed request goes to a message that waits or back to its list. -/
theorem Sound.wrcomplete (sound : Sound s) {transfer : Transfer} {status : Int} (inside : transfer ∈ s.inFlight)
    (orderly : Orderly s (.wrcomplete transfer status)) :
    Sound (usbclassWrcomplete { s with inFlight := s.inFlight.erase transfer } transfer.ep transfer.req status) := by
  have writes := sound.flows.routed transfer inside
  have inHand : Flows { s with inFlight := s.inFlight.erase transfer }
      (withHand transfer.ep transfer.req s.held) :=
    ⟨sound.flows.sizes, sound.flows.fits, sound.flows.counted.complete inside,
      fun other there => sound.flows.routed other (mem_of_mem_erase there)⟩
  unfold usbclassWrcomplete
  unfold Orderly at orderly
  cases queue : s.msgQueue with
  | nil =>
    rw [queue] at orderly
    have ordered := sound.inOrder
    rw [queue] at ordered
    have back : Flows { s with
        pool := putRequest s.pool (epnoToReqList transfer.ep) transfer.req
        inFlight := s.inFlight.erase transfer } s.held :=
      { inHand with counted := inHand.counted.put }
    refine ⟨ordered, back.frame rfl rfl rfl, nofun, fun call there => ?_⟩
    by_cases kind : epnoToReqList transfer.ep = .intreq
    · have placed := (sound.calling call there).put transfer.req kind (orderly kind call there)
      exact placed.frame rfl (fun _ => nofun) rfl
    · exact (sound.calling call there).frame (update_of_ne (Ne.symm kind) _ _) (fun _ => nofun) rfl
  | cons info rest =>
    rw [queue] at orderly
    obtain ⟨kind, rfl⟩ := orderly
    obtain ⟨unpaused, submitted⟩ := toUsbSubmit_zero
      { s with inFlight := s.inFlight.erase transfer, msgQueue := rest } info.buf info.ep transfer.req
      (s.bytes info.buf info.len)
    change Sound (toUsbSubmit _ info.buf info.ep transfer.req (s.bytes info.buf info.len) 0).2
    rw [submitted]
    have waiting (other : Message) (there : other ∈ rest) := sound.waiting other (queue ▸ mem_cons_of_mem _ there)
    obtain ⟨toHost, fits, -⟩ := sound.waiting info (queue ▸ mem_cons_self)
    refine ⟨?_, ?_, waiting, fun call there => ?_⟩
    · change SameLanes _ s.accepted ((s.submitted ++ [_]).map Transfer.packet ++ rest.map s.packet)
      have before := sound.inOrder
      rw [queue, map_cons, append_cons] at before
      rw [map_append]
      exact before
    · have other : withHand transfer.ep transfer.req s.held = withHand info.ep transfer.req s.held := by
        unfold withHand
        rw [kind]
      rw [other] at inHand
      refine inHand.submit toHost ?_ rfl rfl rfl
      rwa [Bridge.bytes_length]
    · refine (sound.calling call there).frame rfl (fun quiet other waits => ?_) rfl
      exact quiet other (queue ▸ mem_cons_of_mem _ waits)

theorem held_of (calling : s.call = some call) : s.held = call.place.held := by
  funext list
  unfold Bridge.held
  rw [calling]

theorem held_none (idle : s.call = none) : s.held = fun _ => [] := by
  funext list
  unfold Bridge.held
  rw [idle]

theorem Sound.goto (sound : Sound s) {place : Place} (flows : Flows s place.held)
    (there : s.At { call with place := place }) : Sound (s.goto call place) := by
  refine ⟨sound.inOrder, flows.frame rfl rfl rfl, sound.waiting, ?_⟩
  intro other inside
  obtain rfl := mem_some_iff.mp inside
  exact there.frame rfl id rfl

theorem Sound.leave (sound : Sound s) (flows : Flows s fun _ => []) : Sound { s with call := none } := by
  refine ⟨sound.inOrder, flows.frame rfl rfl rfl, sound.waiting, ?_⟩
  intro call inside
  cases inside

/-- A step of a call that has begun keeps the bridge sound. -/
theorem Sound.task (sound : Sound s) {malloc : Bool} {status : Int} (calling : s.call = some call)
    (accepts : call.place.Submits → status = 0) (stepped : svcToUsbStep s call malloc status = some s') :
    Sound s' := by
  obtain ⟨short, here⟩ := sound.calling call calling
  have flows := sound.flows
  rw [held_of calling] at flows
  unfold svcToUsbStep at stepped
  cases place : call.place with rw [place] at here flows stepped accepts
  | isEmpty =>
    obtain rfl := some.inj stepped
    split
    · rename_i empty
      exact sound.goto flows ⟨short, empty⟩
    · rename_i stocked
      exact sound.goto flows ⟨short, stocked⟩
  | next =>
    obtain ⟨req, first, rfl⟩ := map_eq_some_iff.mp stepped
    obtain ⟨rest, stocked⟩ := List.head?_eq_some_iff.mp first
    exact sound.goto flows ⟨short, rest, stocked⟩
  | del req =>
    obtain rfl := some.inj stepped
    obtain ⟨rest, stocked⟩ := here
    rw [stocked, erase_cons_head]
    have kind : epnoToReqList apbridgeEpintin = .intreq := rfl
    have taken : Flows { s with
        pool := { s.pool with queue := update s.pool.queue .intreq rest } } (Place.memcpy req).held :=
      { flows with counted := flows.counted.take kind stocked rfl rfl }
    have quiet : Quiet s := by
      intro info inside same
      have empty := (sound.waiting info inside).2.2
      rw [same, stocked] at empty
      cases empty
    refine ⟨sound.inOrder, taken.frame rfl rfl rfl, ?_, ?_⟩
    · intro info inside
      obtain ⟨toHost, fits, empty⟩ := sound.waiting info inside
      exact ⟨toHost, fits, (update_of_ne (quiet info inside) _ _).trans empty⟩
    · intro other inside
      obtain rfl := mem_some_iff.mp inside
      exact ⟨short, quiet⟩
  | memcpy req =>
    obtain rfl := some.inj stepped
    exact sound.goto flows ⟨short, here, rfl⟩
  | submit req bytes =>
    obtain rfl := some.inj stepped
    obtain rfl := accepts trivial
    obtain ⟨quiet, rfl⟩ := here
    obtain ⟨unpaused, submitted⟩ := toUsbSubmit_zero { s with call := none } call.buf apbridgeEpintin req
      (s.bytes call.buf call.len)
    rw [submitted]
    have inHand : Flows s (withHand apbridgeEpintin req fun _ => []) := flows
    refine ⟨?_, ?_, sound.waiting, nofun⟩
    · refine sound.overtake fun info inside same => quiet info inside ?_
      rw [same]
      rfl
    · refine inHand.submit (Or.inl rfl) ?_ rfl rfl rfl
      rw [Bridge.bytes_length]
      exact short
  | malloc =>
    obtain rfl := some.inj stepped
    split
    · exact sound.goto flows ⟨short, here⟩
    · exact sound.leave flows
  | add =>
    obtain rfl := some.inj stepped
    exact (sound.leave flows).queued (Or.inl rfl) short here fun _ => rfl

/-- An orderly write to a buffer changes no message on its way. -/
theorem Sound.write (sound : Sound s) {bytes : ℕ → UInt8} (orderly : Orderly s (.write buf bytes)) :
    Sound (s.write buf bytes) := by
  obtain ⟨packets, calls⟩ := orderly
  refine ⟨?_, sound.flows.frame rfl rfl rfl, sound.waiting, fun call inside => ?_⟩
  · have same : s.msgQueue.map (s.write buf bytes).packet = s.msgQueue.map s.packet := map_congr_left packets
    change SameLanes _ s.accepted (_ ++ s.msgQueue.map (s.write buf bytes).packet)
    rw [same]
    exact sound.inOrder
  · exact (sound.calling call inside).frame rfl id (calls call inside)

/-- An orderly event keeps the bridge sound. -/
theorem Sound.step (sound : Sound s) {event : Event} (orderly : Orderly s event)
    (stepped : ToHost.step s event = some s') : Sound s' := by
  cases event with
  | unipro buf len malloc status =>
    obtain rfl := some.inj stepped
    unfold uniproToUsb
    split
    · exact sound
    · rename_i short
      obtain ⟨routed, accepts⟩ := orderly (Nat.le_of_not_lt short)
      exact sound.toUsb routed accepts
  | svc buf len =>
    simp only [ToHost.step] at stepped
    split at stepped
    · cases stepped
    · split at stepped
      · obtain rfl := some.inj stepped
        exact sound
      · rename_i idle short
        obtain rfl := some.inj stepped
        have flows := sound.flows
        rw [held_none (not_isSome_iff_eq_none.mp idle)] at flows
        refine ⟨sound.inOrder, flows.frame rfl rfl rfl, sound.waiting, ?_⟩
        intro call inside
        obtain rfl := mem_some_iff.mp inside
        exact ⟨Nat.le_of_not_lt short, trivial⟩
  | task malloc status =>
    obtain ⟨call, calling, stepped⟩ := bind_eq_some_iff.mp stepped
    exact sound.task calling (orderly call calling) stepped
  | wrcomplete transfer status =>
    simp only [ToHost.step] at stepped
    obtain ⟨inside, rfl⟩ := ite_some_none_eq_some.mp stepped
    exact sound.wrcomplete inside orderly
  | write buf bytes =>
    obtain rfl := some.inj stepped
    exact sound.write orderly

/-- When nothing is in flight, no message waits. -/
theorem Sound.drained (sound : Sound s) (idle : s.call = none) (landed : s.inFlight = []) : s.msgQueue = [] := by
  apply eq_nil_iff_forall_not_mem.mpr
  intro info inside
  obtain ⟨writes, -, empty⟩ := sound.waiting info inside
  have counted := sound.flows.counted (epnoToReqList info.ep) writes
  unfold Bridge.flying at counted
  rw [empty, landed, held_none idle] at counted
  have none := counted.symm.eq_nil
  cases writes with
  | inl kind | inr kind =>
    rw [kind] at none
    revert none
    decide

end Step

/-- From `usbclass_bind` on, while every step is orderly, the messages to the host are delivered. -/
theorem messages_delivered (cportToEpin : ℕ → ℕ) (payload : ℕ → ℕ → UInt8) (events : List Event) (s : Bridge)
    (orderly : Guarded step Orderly (.bound cportToEpin payload) events)
    (ran : run step (.bound cportToEpin payload) events = some s) : Delivered s := by
  have sound : Sound s := run_invariant_of_guarded Sound (Sound.bound cportToEpin payload) orderly ran fun sound =>
    sound.step
  exact {
    inOrder := sound.inOrder
    fits := sound.flows.fits
    conserved := sound.flows.counted
    waits := fun _ info inside => (sound.waiting info inside).2.2
    drained := fun idle landed => sound.drained idle landed }

/-- One message in each kind of request, and one that waits for the interrupt endpoint until its request is completed -/
def oneWaits : List Event :=
  [.unipro 0 8 true 0, .svc 1 8] ++ List.replicate 5 (.task true 0) ++ [.svc 2 9] ++ List.replicate 3 (.task true 0) ++
    [.wrcomplete ⟨apbridgeEpintin, 1, List.replicate 8 0⟩ 0]

theorem messages_delivered_oneWaits :
    ∃ s, run step (.bound (fun _ => apbridgeEpbulkin) fun _ _ => 0) oneWaits = some s ∧
      s.submitted.map Transfer.req = [9, 1, 1] ∧ Delivered s := by
  refine exists_final (fun s => s.submitted.map Transfer.req) [9, 1, 1] (by decide +kernel) fun s ran submitted => ?_
  refine ⟨submitted, messages_delivered _ _ oneWaits s ?_ ran⟩
  decide +kernel

/-- The bulk requests are all in flight and a long message waits when the request of the interrupt endpoint is
completed. -/
def crossing : List Event :=
  List.replicate 7 (.unipro 0 8 true 0) ++ [.unipro 0 1025 true 0, .svc 1 8] ++ List.replicate 5 (.task true 0) ++
    [.wrcomplete ⟨apbridgeEpintin, 1, List.replicate 8 0⟩ 0]

theorem usbclass_wrcomplete_overflows :
    ∃ s, run step (.bound (fun _ => apbridgeEpbulkin) fun _ _ => 0) crossing = some s ∧ ¬Delivered s := by
  refine exists_final (fun s => s.submitted.all fun transfer => transfer.bytes.length ≤ s.pool.size transfer.req)
    false (by decide +kernel) fun s ran long => ?_
  intro delivered
  have short : (s.submitted.all fun transfer => transfer.bytes.length ≤ s.pool.size transfer.req) = true :=
    List.all_eq_true.mpr fun transfer inside => decide_eq_true (delivered.fits transfer inside)
  rw [long] at short
  cases short

end Phabos.ApBridge.ToHost
