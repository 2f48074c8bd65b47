import Phabos.Construction.Usb.Control

namespace Phabos.ApBridge.Mapping
open Library UsbHop ApBridge List Function

/-- An endpoint that `usbclass_bind` makes for messages to the host -/
def BulkIn (ep : ℕ) : Prop := apbridgeEpbulkin ≤ ep ∧ ep < apbridgeMaxEndpoints ∧ ep % 2 = 1

/-- A request that is allocated for the bulk IN endpoints -/
def FromWrreq (req : ℕ) : Prop := req ∈ usbclassBind.queue .wrreq

/-- All elements that were used are in their arrays, no access to the request's buffer went behind it, and messages from
UniPro are given to bulk IN endpoints with requests for them. -/
structure Bridge.InRange (cportCount : ℕ) (s : Bridge) : Prop where
  accesses : ∀ access ∈ s.accesses, access.2 < access.1.size cportCount
  buffer : s.control.reach ≤ apbridgeMxdesclen
  submitted : ∀ transfer ∈ s.submitted, BulkIn transfer.ep ∧ FromWrreq transfer.req

/-- A number of an endpoint for messages to the host -/
structure InNumber (epno : ℕ) : Prop where
  list : epnoToReqList epno = .wrreq
  ep : BulkIn (usbEpno epno)

/-- The mapping in the buffer is for a CPort, a bulk IN endpoint and an element of the second array. -/
structure Fits (cportCount : ℕ) (memory : ℕ → UInt8) : Prop where
  cport : mappedCport memory < cportCount
  epin : InNumber (memory 2).toNat
  epout : mappedEpout memory < apbridgeNbulks

/-- After the step everything is still in range, and a mapping that does not fit has changed neither table. -/
def Safe (cportCount : ℕ) (s : Bridge) (event : Event) : Prop :=
  ∀ next, step s event = some next → next.InRange cportCount ∧
    ∀ data, event = .mapping data → ¬Fits cportCount (s.control.fill data).memory →
      next.control.cportToEpin = s.control.cportToEpin ∧ next.control.epoutToCport = s.control.epoutToCport

/-- What a control request puts into the buffer has room there, a mapping fits, the pad bytes of a message have the number of
a CPort, and a waiting message from UniPro gets a request for the bulk IN endpoints. -/
def Harmless (cportCount : ℕ) (s : Bridge) : Event → Prop
  | .mapping data => data.length ≤ apbridgeMxdesclen ∧ Fits cportCount (s.control.fill data).memory
  | .control data => data.length ≤ apbridgeMxdesclen
  | .unipro payload len _ _ => len ≤ apbridgeReqSize → getCportid payload < cportCount
  | .wrcomplete transfer _ => transfer ∈ s.inFlight →
      ∀ info ∈ s.msgQueue.head?, info.source = .unipro → FromWrreq transfer.req
  | .svc _ _ _ | .rdcomplete _ _ => True

/-- The first table has numbers of bulk IN endpoints, and the requests for these are where they belong. -/
structure Sound (cportCount : ℕ) (s : Bridge) : Prop where
  inRange : s.InRange cportCount
  table : ∀ cport < cportCount, InNumber (s.control.cportToEpin cport % 256)
  free : ∀ req ∈ s.control.pool.queue .wrreq, FromWrreq req
  flying : ∀ transfer ∈ s.inFlight, epnoToReqList transfer.ep = .wrreq → FromWrreq transfer.req
  waiting : ∀ info ∈ s.msgQueue, info.source = .unipro → BulkIn info.ep
  services : ∀ info ∈ s.msgQueue, info.source = .svc → info.ep = apbridgeEpintin

section Steps
variable {cportCount : ℕ} {s next : Bridge} {event : Event} {source : Source} {transfer : FromHost.Transfer}

/-- A step stays in range when it uses no further element and no further byte of the buffer and submits nothing. -/
theorem Bridge.InRange.same (inRange : s.InRange cportCount) (accesses : next.accesses = s.accesses)
    (reach : next.control.reach = s.control.reach) (submitted : next.submitted = s.submitted) :
    next.InRange cportCount :=
  ⟨accesses ▸ inRange.accesses, reach ▸ inRange.buffer, submitted ▸ inRange.submitted⟩

theorem Sound.access (sound : Sound cportCount s) (table : Table) {index : ℕ} (inside : index < table.size cportCount) :
    Sound cportCount (s.access table index) where
  inRange := by
    refine { sound.inRange with accesses := fun access listed => ?_ }
    rcases mem_append.mp listed with before | last
    · exact sound.inRange.accesses access before
    · rw [mem_singleton.mp last]
      exact inside
  table := sound.table
  free := sound.free
  flying := sound.flying
  waiting := sound.waiting
  services := sound.services

theorem Sound.toUsbSubmit (sound : Sound cportCount s) (status : Int)
    (bridged : source = .unipro → BulkIn transfer.ep ∧ FromWrreq transfer.req)
    (home : epnoToReqList transfer.ep = .wrreq → FromWrreq transfer.req) :
    Sound cportCount (toUsbSubmit s source transfer status) := by
  have submitted : Sound cportCount
      (if source = .unipro then { s with submitted := s.submitted ++ [transfer] } else s) := by
    by_cases unipro : source = .unipro
    · rw [if_pos unipro]
      refine { sound with inRange := { sound.inRange with submitted := fun other listed => ?_ } }
      rcases mem_append.mp listed with before | last
      · exact sound.inRange.submitted other before
      · rw [mem_singleton.mp last]
        exact bridged unipro
    · rw [if_neg unipro]
      exact sound
  unfold Mapping.toUsbSubmit
  by_cases refused : status ≠ 0
  · rw [if_pos refused]
    exact submitted
  · rw [if_neg refused]
    refine { submitted with inRange := submitted.inRange.same rfl rfl rfl, flying := fun other listed => ?_ }
    rcases mem_append.mp listed with before | last
    · exact submitted.flying other before
    · rw [mem_singleton.mp last]
      exact home

theorem getRequest_mem {pool rest : Pool} {list : ReqList} {req : ℕ} (taken : getRequest pool list = some (req, rest)) :
    req ∈ pool.queue list ∧ ∀ other, ∀ left ∈ rest.queue other, left ∈ pool.queue other := by
  unfold getRequest at taken
  cases queue : pool.queue list with
  | nil =>
    rw [queue] at taken
    cases taken
  | cons first later =>
    rw [queue] at taken
    injection taken with same
    injection same with same after
    subst same after
    refine ⟨mem_cons_self .., fun other left listed => ?_⟩
    by_cases here : other = list
    · subst here
      rw [queue]
      exact mem_cons_of_mem _ (by simpa using listed)
    · simpa [update_of_ne here] using listed

theorem Sound.toUsb {epno : ℕ} (sound : Sound cportCount s) (malloc : Bool) (status : Int)
    (exists' : usbEpno epno < apbridgeMaxEndpoints) (bridged : source = .unipro → InNumber epno)
    (service : source = .svc → epno = apbridgeEpintin)
    (home : epnoToReqList (usbEpno epno) = .wrreq → epnoToReqList epno = .wrreq) :
    Sound cportCount (toUsb s source epno malloc status) := by
  unfold Mapping.toUsb
  have used : Sound cportCount (s.access .ep (usbEpno epno)) := sound.access .ep exists'
  cases taken : getRequest s.control.pool (epnoToReqList epno) with
  | none =>
    dsimp only
    cases malloc with
    | false => exact used
    | true =>
      refine { used with
        inRange := used.inRange.same rfl rfl rfl
        waiting := fun info listed unipro => ?_
        services := fun info listed svc => ?_ }
      · rcases mem_append.mp listed with before | last
        · exact used.waiting info before unipro
        · rw [mem_singleton.mp last] at unipro ⊢
          exact (bridged unipro).ep
      · rcases mem_append.mp listed with before | last
        · exact used.services info before svc
        · rw [mem_singleton.mp last] at svc ⊢
          rw [service svc]
          rfl
  | some request =>
    obtain ⟨req, pool⟩ := request
    obtain ⟨here, others⟩ := getRequest_mem taken
    have own : epnoToReqList epno = .wrreq → FromWrreq req := fun list => sound.free req (list ▸ here)
    dsimp only
    refine Sound.toUsbSubmit ?_ status (fun unipro => ⟨(bridged unipro).ep, own (bridged unipro).list⟩)
      fun list => own (home list)
    exact { used with
      inRange := used.inRange.same rfl rfl rfl
      free := fun other listed => sound.free other (others .wrreq other listed) }

theorem mapped_table (s : Bridge) (data : List UInt8) : (mapCportToEp s data).control.cportToEpin =
    update s.control.cportToEpin (mappedCport (s.control.fill data).memory)
      ((s.control.fill data).memory 2).toNat := rfl

/-- A harmless event keeps the mapping sound. -/
theorem Sound.step (sound : Sound cportCount s) (harmless : Harmless cportCount s event)
    (stepped : step s event = some next) : Sound cportCount next := by
  cases event with
  | mapping data =>
    obtain rfl := Option.some.inj stepped
    obtain ⟨room, fits⟩ := harmless
    have used := (sound.access .cportToEpinN fits.cport).access .epoutToCportN fits.epout
    have reached : max (max s.control.reach data.length) 4 ≤ apbridgeMxdesclen :=
      max_le (max_le sound.inRange.buffer room) (by decide)
    refine { used with inRange := { used.inRange with buffer := reached }, table := ?_ }
    intro cport inside
    rw [mapped_table]
    by_cases here : cport = mappedCport (s.control.fill data).memory
    · rw [here, update_self, Nat.mod_eq_of_lt (UInt8.toNat_lt _)]
      exact fits.epin
    · rw [update_of_ne here]
      exact sound.table cport inside
  | control data =>
    obtain rfl := Option.some.inj stepped
    exact { sound with inRange := { sound.inRange with buffer := max_le sound.inRange.buffer harmless } }
  | unipro payload len malloc status =>
    obtain rfl := Option.some.inj stepped
    unfold uniproToUsb
    by_cases long : apbridgeReqSize < len
    · rw [if_pos long]
      exact sound
    · rw [if_neg long]
      have inside := harmless (Nat.le_of_not_lt long)
      have number := sound.table _ inside
      exact (sound.access .cportToEpinN inside).toUsb malloc status number.ep.2.1 (fun _ => number)
        (fun svc => nomatch svc) fun _ => number.list
  | svc len malloc status =>
    obtain rfl := Option.some.inj stepped
    unfold svcToUsb
    by_cases long : apbridgeEpintinMxpacket < len
    · rw [if_pos long]
      exact sound
    · rw [if_neg long]
      exact sound.toUsb malloc status (by decide) (fun unipro => nomatch unipro) (fun _ => rfl) (by decide)
  | wrcomplete transfer status =>
    by_cases flying : transfer ∈ s.inFlight
    · have ended : Sound cportCount { s with inFlight := s.inFlight.erase transfer } :=
        { sound with
          inRange := sound.inRange.same rfl rfl rfl
          flying := fun other listed => sound.flying other (mem_of_mem_erase listed) }
      obtain rfl := Option.some.inj ((if_pos flying).symm.trans stepped)
      unfold usbclassWrcomplete
      cases queue : s.msgQueue with
      | nil =>
        refine { ended with
          inRange := ended.inRange.same rfl rfl rfl
          free := fun req listed => ?_
          waiting := fun _ none => absurd none not_mem_nil
          services := fun _ none => absurd none not_mem_nil }
        by_cases here : epnoToReqList transfer.ep = .wrreq
        · have known : req ∈ s.control.pool.queue .wrreq ++ [transfer.req] := by
            simpa [putRequest, here] using listed
          rcases mem_append.mp known with before | last
          · exact sound.free req before
          · rw [mem_singleton.mp last]
            exact sound.flying transfer flying here
        · have known : req ∈ s.control.pool.queue .wrreq := by
            simpa [putRequest, update_of_ne (Ne.symm here)] using listed
          exact sound.free req known
      | cons info rest =>
        have head : info ∈ s.msgQueue := queue ▸ mem_cons_self ..
        have own := harmless flying info (by rw [queue]; rfl)
        have later : Sound cportCount { s with inFlight := s.inFlight.erase transfer, msgQueue := rest } :=
          { ended with
            inRange := ended.inRange.same rfl rfl rfl
            waiting := fun other listed => sound.waiting other (queue ▸ mem_cons_of_mem _ listed)
            services := fun other listed => sound.services other (queue ▸ mem_cons_of_mem _ listed) }
        refine later.toUsbSubmit status (fun unipro => ⟨sound.waiting info head unipro, own unipro⟩) fun list => ?_
        cases source : info.source with
        | unipro => exact own source
        | svc =>
          have interrupt := sound.services info head source
          rw [interrupt] at list
          cases list
    · cases (if_neg flying).symm.trans stepped
  | rdcomplete ep result =>
    by_cases out : ep < apbridgeMaxEndpoints ∧ ep ≠ 0 ∧ ep % 2 = 0
    · obtain rfl := Option.some.inj ((if_pos out).symm.trans stepped)
      unfold usbclassRdcomplete
      dsimp only
      split
      · refine sound.access .epoutToCportN ?_
        have small : ep < 16 := out.1
        change (ep - 2) >>> 1 < 7
        rw [Nat.shiftRight_eq_div_pow]
        omega
      · exact sound
    · cases (if_neg out).symm.trans stepped

theorem toUsb_accesses (s : Bridge) (source : Source) (epno : ℕ) (malloc : Bool) (status : Int) :
    (toUsb s source epno malloc status).accesses = s.accesses ++ [(.ep, usbEpno epno)] := by
  unfold toUsb toUsbSubmit
  cases getRequest s.control.pool (epnoToReqList epno) with
  | none => cases malloc <;> rfl
  | some request =>
    dsimp only
    split <;> split <;> rfl

theorem Sound.harmless (sound : Sound cportCount s) (safe : Safe cportCount s event) : Harmless cportCount s event := by
  cases event with
  | mapping data =>
    obtain ⟨inRange, refused⟩ := safe _ rfl
    refine ⟨(le_max_right ..).trans ((le_max_left ..).trans inRange.buffer), ?_⟩
    by_contra unfit
    have cport : mappedCport (s.control.fill data).memory < cportCount :=
      inRange.accesses (.cportToEpinN, _) (mem_append_left _ (mem_append_right _ (mem_singleton_self _)))
    have epout : mappedEpout (s.control.fill data).memory < apbridgeNbulks :=
      inRange.accesses (.epoutToCportN, _) (mem_append_right _ (mem_singleton_self _))
    have kept := congrFun (refused data rfl unfit).1 (mappedCport (s.control.fill data).memory)
    rw [mapped_table, update_self] at kept
    have number := sound.table _ cport
    rw [← kept, Nat.mod_eq_of_lt (UInt8.toNat_lt _)] at number
    exact unfit ⟨cport, number, epout⟩
  | unipro payload len malloc status =>
    intro short
    have inRange := (safe _ rfl).1
    unfold uniproToUsb at inRange
    rw [if_neg (Nat.not_lt.mpr short)] at inRange
    refine inRange.accesses (.cportToEpinN, getCportid payload) ?_
    rw [toUsb_accesses]
    exact mem_append_left _ (mem_append_right _ (mem_singleton_self _))
  | wrcomplete transfer status =>
    intro flying info head unipro
    have inRange := (safe _ (if_pos flying)).1
    obtain ⟨rest, queue⟩ := List.head?_eq_some_iff.mp head
    unfold usbclassWrcomplete at inRange
    rw [queue] at inRange
    have submitted : (Mapping.toUsbSubmit { s with inFlight := s.inFlight.erase transfer, msgQueue := rest } info.source
        ⟨info.ep, transfer.req⟩ status).submitted = s.submitted ++ [⟨info.ep, transfer.req⟩] := by
      unfold Mapping.toUsbSubmit
      rw [if_pos unipro]
      split <;> rfl
    refine (inRange.submitted ⟨info.ep, transfer.req⟩ ?_).2
    dsimp only
    rw [submitted]
    exact mem_append_right _ (mem_singleton_self _)
  | control data => exact (le_max_right ..).trans (safe _ rfl).1.buffer
  | svc len malloc status => trivial
  | rdcomplete ep result => trivial

/-- A harmless event is safe. -/
theorem Sound.safe (sound : Sound cportCount s) (harmless : Harmless cportCount s event) : Safe cportCount s event := by
  intro next stepped
  refine ⟨(sound.step harmless stepped).inRange, fun data mapping unfit => ?_⟩
  subst mapping
  exact absurd harmless.2 unfit

theorem sound_bound (behind : ℕ → ℕ) (memory : ℕ → UInt8) : Sound cportCount (.bound cportCount behind memory) where
  inRange := ⟨fun _ none => absurd none not_mem_nil, Nat.zero_le _, fun _ none => absurd none not_mem_nil⟩
  table := by
    intro cport inside
    have three : (Bridge.bound cportCount behind memory).control.cportToEpin cport = apbridgeEpbulkin := if_pos inside
    rw [three]
    exact ⟨rfl, by decide, by decide, by decide⟩
  free := fun _ listed => listed
  flying := fun _ none => absurd none not_mem_nil
  waiting := fun _ none => absurd none not_mem_nil
  services := fun _ none => absurd none not_mem_nil

end Steps

/-- Every step of a run is safe when and only when every step is harmless. -/
theorem endpoint_mapping_iff (cportCount : ℕ) (behind : ℕ → ℕ) (memory : ℕ → UInt8) (events : List Event) :
    Guarded step (Safe cportCount) (.bound cportCount behind memory) events ↔
      Guarded step (Harmless cportCount) (.bound cportCount behind memory) events := by
  constructor
  · refine Guarded.imp (Sound cportCount) (fun s event sound safe => ?_) (sound_bound behind memory)
    exact ⟨sound.harmless safe, fun next stepped => sound.step (sound.harmless safe) stepped⟩
  · refine Guarded.imp (Sound cportCount) (fun s event sound harmless => ?_) (sound_bound behind memory)
    exact ⟨sound.safe harmless, fun next stepped => sound.step harmless stepped⟩

/-- A mapping for CPort 44 of 44 CPorts -/
def mapping44 : List UInt8 := [44, 0, 3, 2]

/-- The mapping is written behind the first table. -/
theorem endpoint_mapping_out_of_range :
    ¬Guarded step (Safe 44) (.bound 44 (fun _ => 0) fun _ => 0) [.mapping mapping44] := by
  intro guarded
  have inRange := (guarded.1 _ rfl).1
  exact absurd (inRange.accesses (.cportToEpinN, 44) (by decide)) (by decide)

end Phabos.ApBridge.Mapping
