import Phabos.Construction.Usb.FromHost

namespace Phabos.ApBridge.FromHost
open Library UsbHop ApBridge List Option

section Position
variable {address : ℕ → ℕ} {reqs : List ℕ} {position : ℕ}

theorem setconfigLoop_req (reqs : List ℕ) (position : ℕ) :
    (setconfigLoop reqs position).map Transfer.req = reqs := by
  induction reqs generalizing position with
  | nil => rfl
  | cons req rest ih => rw [setconfigLoop, map_cons, ih]

theorem releaseLoop_setconfig (distinct : Function.Injective address) (nodup : reqs.Nodup) {transfer : Transfer}
    (inside : transfer ∈ setconfigLoop reqs position) :
    releaseLoop address (address transfer.req) reqs position = some transfer := by
  induction reqs generalizing position with
  | nil => cases inside
  | cons req rest ih =>
    obtain ⟨fresh, nodup⟩ := nodup_cons.mp nodup
    rw [setconfigLoop] at inside
    cases mem_cons.mp inside with
    | inl first =>
      subst first
      rw [releaseLoop, if_pos rfl]
    | inr later =>
      have there : transfer.req ∈ rest := by
        rw [← setconfigLoop_req rest (position + 1)]
        exact mem_map_of_mem later
      have other : address req ≠ address transfer.req := by
        intro same
        rw [distinct same] at fresh
        exact fresh there
      rw [releaseLoop, if_neg other]
      exact ih nodup later

end Position

/-- Where the seven requests are -/
structure Sound (address : ℕ → ℕ) (s : Bridge) : Prop where
  list : s.rdreq = usbclassBind.queue .rdreq
  placed : (s.inFlight ++ s.held.map Send.origin ++ s.down).Perm Bridge.configured.inFlight
  again : (s.resubmitted ++ s.held.map Send.origin).Perm s.completed
  buffers : ∀ send ∈ s.held, send.buf = address send.origin.req

section Step
variable {address epoutToCport : ℕ → ℕ} {s s' : Bridge}

theorem Sound.configured (address : ℕ → ℕ) : Sound address .configured where
  list := rfl
  placed := by
    change (Bridge.configured.inFlight ++ [] ++ []).Perm _
    rw [append_nil, append_nil]
  again := List.Perm.nil
  buffers := nofun

theorem usbclassRdcomplete_isSome (epoutToCport : ℕ → ℕ) (result : Int) (epN : ℕ) (bytes : List UInt8) :
    (UsbHop.usbclassRdcomplete epoutToCport result epN bytes).isSome = true ↔
      result = 0 ∧ hdrSize ≤ bytes.length := by
  have header (buf : List UInt8) : (usbToUnipro buf).isSome = true ↔ hdrSize ≤ buf.length := by
    unfold usbToUnipro
    split
    · rename_i short
      exact iff_of_false nofun (Nat.not_le_of_lt short)
    · rename_i long
      exact iff_of_true rfl (Nat.le_of_not_lt long)
  unfold UsbHop.usbclassRdcomplete
  by_cases success : result = 0
  · rw [if_pos success, header, and_iff_right success]
    split
    · unfold setPad1 setPad0
      rw [length_set, length_set]
    · rfl
  · rw [if_neg success]
    exact iff_of_false nofun fun both => success both.1

theorem configured_nodup : (Bridge.configured.inFlight.map Transfer.req).Nodup := by decide

section
variable (sound : Sound address s)
include sound

theorem Sound.shutdown {transfer : Transfer} (inside : transfer ∈ s.inFlight) :
    Sound address { s with inFlight := s.inFlight.erase transfer, down := s.down ++ [transfer] } where
  list := sound.list
  placed := by
    refine List.Perm.trans ?_ sound.placed
    have moved := perm_cons_erase inside
    rw [← append_assoc]
    exact (perm_append_singleton transfer _).trans ((moved.append_right _).append_right _).symm
  again := sound.again
  buffers := sound.buffers

theorem Sound.take {transfer : Transfer} (inside : transfer ∈ s.inFlight) (cport : ℕ) (bytes : List UInt8) :
    Sound address { s with
      inFlight := s.inFlight.erase transfer
      completed := s.completed ++ [transfer]
      held := s.held ++ [⟨transfer, address transfer.req, cport, bytes⟩] } where
  list := sound.list
  placed := by
    refine List.Perm.trans ?_ sound.placed
    refine List.Perm.append_right _ ?_
    rw [map_append, ← append_assoc]
    exact (perm_append_singleton transfer _).trans ((perm_cons_erase inside).append_right _).symm
  again := by
    rw [map_append, ← append_assoc]
    exact sound.again.append_right _
  buffers := by
    intro send there
    cases mem_append.mp there with
    | inl before => exact sound.buffers send before
    | inr new =>
      obtain rfl := mem_singleton.mp new
      rfl

theorem Sound.release {send : Send} (inside : send ∈ s.held) :
    Sound address { s with
      held := s.held.erase send
      inFlight := s.inFlight ++ [send.origin]
      resubmitted := s.resubmitted ++ [send.origin] } := by
  have moved := (perm_cons_erase inside).map Send.origin
  refine ⟨sound.list, ?_, ?_, fun other there => sound.buffers other (mem_of_mem_erase there)⟩
  · refine List.Perm.trans (List.Perm.append_right _ ?_) sound.placed
    rw [append_assoc]
    exact moved.symm.append_left _
  · refine List.Perm.trans ?_ sound.again
    rw [append_assoc]
    exact moved.symm.append_left _

theorem Sound.releaseLoop (distinct : Function.Injective address) {send : Send} (inside : send ∈ s.held) :
    FromHost.releaseLoop address send.buf (s.rdreq.take (apbridgeNbulks * apbridgeNreqs)) 0 = some send.origin := by
  rw [sound.buffers send inside, sound.list]
  apply releaseLoop_setconfig distinct (by decide)
  apply sound.placed.mem_iff.mp
  exact mem_append_left _ (mem_append_right _ (mem_map_of_mem inside))

/-- An event that returns its request keeps the bridge sound. -/
theorem Sound.step (distinct : Function.Injective address) {event : Event} (returns : event.Returns)
    (stepped : FromHost.step address epoutToCport s event = some s') : Sound address s' := by
  cases event with
  | rdcomplete transfer result bytes takes =>
    simp only [FromHost.step] at stepped
    obtain ⟨inside, rfl⟩ := ite_some_none_eq_some.mp stepped
    unfold FromHost.usbclassRdcomplete
    split
    · exact sound.shutdown inside
    · rename_i up
      obtain down | ⟨success, long, rfl⟩ := returns
      · exact absurd down up
      · have some := (usbclassRdcomplete_isSome epoutToCport result (bulkepToN transfer.ep) bytes).mpr ⟨success, long⟩
        obtain ⟨⟨cport, sent⟩, given⟩ := isSome_iff_exists.mp some
        simp only [given, if_true]
        exact sound.take inside cport sent
  | sent send status submit =>
    simp only [FromHost.step] at stepped
    obtain ⟨inside, rfl⟩ := ite_some_none_eq_some.mp stepped
    obtain rfl := returns
    simp only [usbReleaseBuffer, sound.releaseLoop distinct inside]
    exact sound.release inside

end

/-- What was completed and neither submitted again nor taken by the backend never gets less, and it grows with each
transfer that does not return. -/
theorem step_shortfall {event : Event} (stepped : FromHost.step address epoutToCport s event = some s') :
    s'.resubmitted.length + s'.held.length + s.completed.length + (if event.Returns then 0 else 1) ≤
      s.resubmitted.length + s.held.length + s'.completed.length := by
  have most : (if event.Returns then 0 else 1) ≤ 1 := by
    split
    · exact Nat.zero_le 1
    · exact Nat.le_refl 1
  cases event with
  | rdcomplete transfer result bytes takes =>
    simp only [FromHost.step] at stepped
    split at stepped
    · obtain rfl := some.inj stepped
      unfold FromHost.usbclassRdcomplete
      split
      · rename_i down
        have returns : (Event.rdcomplete transfer result bytes takes).Returns := Or.inl down
        rw [if_pos returns]
        exact Nat.le_refl _
      · cases given : UsbHop.usbclassRdcomplete epoutToCport result (bulkepToN transfer.ep) bytes with
        | none =>
          simp only [length_append, length_singleton]
          omega
        | some sent =>
          obtain ⟨success, long⟩ := (usbclassRdcomplete_isSome epoutToCport result (bulkepToN transfer.ep) bytes).mp
            (isSome_iff_exists.mpr ⟨sent, given⟩)
          cases takes with
          | false =>
            simp only [length_append, length_singleton, Bool.false_eq_true, if_false]
            omega
          | true =>
            have returns : (Event.rdcomplete transfer result bytes true).Returns := Or.inr ⟨success, long, rfl⟩
            rw [if_pos returns]
            simp only [length_append, length_singleton, if_true]
            omega
    · cases stepped
  | sent send status submit =>
    simp only [FromHost.step] at stepped
    obtain ⟨inside, rfl⟩ := ite_some_none_eq_some.mp stepped
    have one : (s.held.erase send).length + 1 = s.held.length := length_erase_add_one inside
    unfold usbReleaseBuffer
    split
    · dsimp only
      omega
    · split
      · dsimp only
        omega
      · rename_i accepted
        have returns : (Event.sent send status submit).Returns := not_not.mp accepted
        rw [if_pos returns]
        simp only [length_append, length_singleton]
        omega

/-- A run is short of one request for each completion that returned none. -/
theorem run_shortfall {events : List Event} (ran : run (FromHost.step address epoutToCport) s events = some s') :
    s'.resubmitted.length + s'.held.length + s.completed.length + events.countP (fun event => ¬event.Returns) ≤
      s.resubmitted.length + s.held.length + s'.completed.length := by
  induction events generalizing s with
  | nil =>
    obtain rfl := some.inj ran
    exact Nat.le_refl _
  | cons event rest ih =>
    obtain ⟨next, stepped, ran⟩ := bind_eq_some_iff.mp ran
    have first := step_shortfall stepped
    have later := ih ran
    rw [countP_cons]
    by_cases returns : event.Returns
    · rw [if_pos returns] at first
      rw [if_neg (by simpa using returns)]
      omega
    · rw [if_neg returns] at first
      rw [if_pos (by simpa using returns)]
      omega

/-- A sound bridge has lost no request. -/
theorem Sound.kept (sound : Sound address s) (distinct : Function.Injective address) : Kept address s where
  again := sound.again
  apart := by
    intro transfer flies send held same
    have once := (sound.placed.map Transfer.req).nodup_iff.mpr configured_nodup
    rw [map_append, map_append] at once
    have apart := (nodup_append.mp (nodup_append.mp once).1).2.2
    refine apart transfer.req (mem_map_of_mem flies) send.origin.req ?_ ?_
    · exact mem_map_of_mem (mem_map_of_mem held)
    · rw [sound.buffers send held] at same
      exact (distinct same).symm
  receives := by
    intro i below
    have configured : ∀ i < apbridgeNbulks, ∃ transfer ∈ Bridge.configured.inFlight,
        transfer.ep = apbridgeEpbulkout + 2 * i := by decide
    obtain ⟨transfer, inside, same⟩ := configured i below
    exact ⟨transfer, sound.placed.mem_iff.mpr inside, same⟩

end Step

/-- The requests of the bulk OUT endpoints are kept in exactly the runs in which every transfer returns. -/
theorem requests_kept_iff (address epoutToCport : ℕ → ℕ) (distinct : Function.Injective address)
    (events : List Event) (s : Bridge) (ran : run (step address epoutToCport) .configured events = some s) :
    Kept address s ↔ ∀ event ∈ events, event.Returns := by
  constructor
  · intro kept
    have shortfall := run_shortfall ran
    have again := kept.again.length_eq
    rw [List.length_append, List.length_map] at again
    have none : events.countP (fun event => ¬event.Returns) = 0 := by
      change s.resubmitted.length + s.held.length + 0 + _ ≤ 0 + 0 + s.completed.length at shortfall
      omega
    intro event inside
    have returns := List.countP_eq_zero.mp none event inside
    simpa using returns
  · intro returns
    have sound : Sound address s := run_invariant_of_guarded (Sound address) (Sound.configured address)
      (Guarded.of_forall fun event inside _ => returns event inside) ran fun sound => sound.step distinct
    exact sound.kept distinct

/-- A message goes to the backend and its buffer comes back, and another endpoint is shut down. -/
theorem requests_kept_iff_returned :
    ∃ s, run (step id fun _ => 0) .configured
        [.rdcomplete ⟨4, 3⟩ 0 (List.replicate 8 0) true, .rdcomplete ⟨2, 2⟩ (- ESHUTDOWN) [] false,
          .sent ⟨⟨4, 3⟩, 3, 0, List.replicate 8 0⟩ 0 0] = some s ∧
      s.resubmitted = [⟨4, 3⟩] ∧ Kept id s := by
  refine exists_final Bridge.resubmitted [⟨4, 3⟩] (by decide +kernel) fun s ran resubmitted => ?_
  exact ⟨resubmitted, (requests_kept_iff id (fun _ => 0) Function.injective_id _ s ran).mpr (by decide)⟩

/-- An empty message takes the endpoint out of use for ever. -/
theorem usb_to_unipro_loses_request :
    ∃ s, run (step id fun _ => 0) .configured [.rdcomplete ⟨2, 2⟩ 0 [] true] = some s ∧ ¬Kept id s := by
  refine exists_final (fun s => (s.inFlight ++ s.held.map Send.origin ++ s.down).map Transfer.ep)
    [4, 6, 8, 10, 12, 14] (by decide +kernel) fun s ran endpoints => ?_
  intro kept
  obtain ⟨transfer, inside, same⟩ := kept.receives 0 (by decide)
  have there := List.mem_map_of_mem (f := Transfer.ep) inside
  rw [endpoints, same] at there
  revert there
  decide

end Phabos.ApBridge.FromHost
