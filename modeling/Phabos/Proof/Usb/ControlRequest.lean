import Phabos.Construction.Usb.Control

namespace Phabos.ApBridge.Control
open Library UsbHop ApBridge Function

/-- The reply is sent in bounds, and the completion of the transfer comes to its end. -/
structure Reply.Good (reply : Reply) (len : ℕ) (hasSvc : Bool) (submit : Int) : Prop where
  sent : 0 ≤ reply.ret
  short : reply.bytes.length ≤ apbridgeMxdesclen
  data : 0 ≤ submit ∨ reply.state = .greybusSvcReq → min len reply.ret.toNat ≤ apbridgeMxdesclen
  taken : reply.state = .greybusSvcReq → hasSvc = true

section Reply
variable {config len : ℕ} {ctrl : CtrlReq} {hispeed hasSvc : Bool} {outcome submit ret : Int} {bytes : List UInt8}

theorem refuse_good (negative : ret < 0) : ¬(Reply.refuse config ret).Good len hasSvc submit := by
  intro good
  exact absurd good.sent (Int.not_le.mpr negative)

theorem ofBytes_good : (Reply.ofBytes config bytes).Good len hasSvc submit ↔ bytes.length ≤ apbridgeMxdesclen := by
  refine ⟨Reply.Good.short, fun short => ⟨Int.natCast_nonneg _, short, fun _ => ?_, nofun⟩⟩
  exact (Nat.min_le_right _ _).trans short

theorem gDevdesc_length : gDevdesc.length = 18 := rfl

theorem gQualdesc_length : gQualdesc.length = 10 := rfl

theorem usbclassMkcfgdesc_length (hispeed : Bool) (type : UInt8) : (usbclassMkcfgdesc hispeed type).length = 123 := by
  have endpoint (i mxpacket : ℕ) : (usbclassMkepdesc i mxpacket).length = 7 := rfl
  unfold usbclassMkcfgdesc
  simp only [List.length_append, List.length_flatMap, endpoint]
  rfl

theorem le_four (id : UInt8) : id ≤ 4 ↔ id = 0 ∨ id = 1 ∨ id = 2 ∨ id = 3 ∨ id = 4 := by
  simp only [UInt8.le_iff_toNat_le, ← UInt8.toNat_inj, UInt8.reduceToNat]
  omega

theorem usbclassMkstrdesc_cases (id : UInt8) :
    id ≤ 4 ∧ (∃ bytes, usbclassMkstrdesc id = some bytes ∧ bytes.length ≤ apbridgeMxdesclen) ∨
      ¬id ≤ 4 ∧ usbclassMkstrdesc id = none := by
  by_cases low : id ≤ 4
  · refine Or.inl ⟨low, ?_⟩
    obtain rfl | rfl | rfl | rfl | rfl := (le_four id).mp low
    all_goals exact ⟨_, rfl, by decide⟩
  · refine Or.inr ⟨low, ?_⟩
    rw [le_four] at low
    simp only [not_or] at low
    obtain ⟨zero, one, two, three, four⟩ := low
    simp only [usbclassMkstrdesc, stringOf, zero, one, two, three, four, if_false, Option.map_none]

theorem getDescriptor_good : (getDescriptor config ctrl hispeed).Good len hasSvc submit ↔
    ctrl.value.2 = 0x01 ∨ ctrl.value.2 = 0x06 ∨ ctrl.value.2 = 0x03 ∧ ctrl.value.1 ≤ 4 := by
  unfold getDescriptor
  split
  · rename_i device
    simp [device, ofBytes_good, gDevdesc_length, apbridgeMxdesclen]
  split
  · rename_i qualifier
    simp [qualifier, ofBytes_good, gQualdesc_length, apbridgeMxdesclen]
  split
  · rename_i configuration
    rw [ofBytes_good, usbclassMkcfgdesc_length]
    obtain other | configured := configuration
    · simp [other, apbridgeMxdesclen]
    · simp [configured, apbridgeMxdesclen]
  rename_i device qualifier _
  rw [or_iff_right device, or_iff_right qualifier]
  split
  · rename_i string
    rw [and_iff_right string]
    obtain ⟨low, bytes, made, short⟩ | ⟨high, none⟩ := usbclassMkstrdesc_cases ctrl.value.1
    · rw [made]
      exact iff_of_true (ofBytes_good.mpr short) low
    · rw [none]
      exact iff_of_false (refuse_good (by decide)) high
  · rename_i other
    exact iff_of_false (refuse_good (by decide)) fun string => other string.1

theorem usbclassSetconfig_sent (current value : ℕ) (outcome : Int) :
    0 ≤ (usbclassSetconfig current value outcome).1 ↔
      value = current ∨ value = 0 ∨ value = 1 ∧ 0 ≤ outcome := by
  unfold usbclassSetconfig
  split
  · rename_i same
    exact iff_of_true (Int.le_refl 0) (Or.inl same)
  rename_i differs
  rw [or_iff_right differs]
  split
  · rename_i zero
    exact iff_of_true (Int.le_refl 0) (Or.inl zero)
  rename_i positive
  rw [or_iff_right positive]
  split
  · rename_i other
    exact iff_of_false (by decide) fun one => other one.1
  rename_i one
  rw [and_iff_right (not_not.mp one)]
  split
  · rfl
  · rename_i success
    exact iff_of_true (Int.le_refl 0) (Int.not_lt.mp success)

theorem usbclassSetconfig_le (current value : ℕ) (outcome : Int) : (usbclassSetconfig current value outcome).1 ≤ 0 := by
  unfold usbclassSetconfig
  split
  · exact Int.le_refl 0
  split
  · exact Int.le_refl 0
  split
  · decide
  split
  · rename_i failure
    exact failure.le
  · exact Int.le_refl 0

theorem empty_good (le : ret ≤ 0) : (⟨ret, [], .usbReq, config⟩ : Reply).Good len hasSvc submit ↔ 0 ≤ ret := by
  refine ⟨Reply.Good.sent, fun sent => ⟨sent, Nat.zero_le _, fun _ => ?_, nofun⟩⟩
  rw [Int.toNat_of_nonpos le]
  exact (Nat.min_le_right _ _).trans (Nat.zero_le _)

theorem standard_good : (standard config ctrl hispeed outcome).Good len hasSvc submit ↔
    ctrl.req = 0x06 ∧ (ctrl.value.2 = 0x01 ∨ ctrl.value.2 = 0x06 ∨ ctrl.value.2 = 0x03 ∧ ctrl.value.1 ≤ 4) ∨
      ctrl.req = 0x09 ∧ ctrl.type = 0 ∧ (getUint16 ctrl.value % 256 = config ∨ getUint16 ctrl.value % 256 = 0 ∨
        getUint16 ctrl.value % 256 = 1 ∧ 0 ≤ outcome) ∨
      ctrl.req = 0x08 ∧ ctrl.type = 0x80 ∨
      ctrl.req = 0x0b ∧ ctrl.type = 0x01 ∧ config = 1 ∧ getUint16 ctrl.index = 0 ∧ getUint16 ctrl.value = 0 ∨
      ctrl.req = 0x0a ∧ ctrl.type = 0x81 ∧ config = 0 ∧ getUint16 ctrl.index = 0 := by
  have refused : ¬(Reply.refuse config (- EOPNOTSUPP)).Good len hasSvc submit := refuse_good (by decide)
  unfold standard
  split
  · rename_i request
    simp [request, getDescriptor_good]
  rename_i notDescriptor
  rw [or_iff_right fun both => notDescriptor both.1]
  split
  · rename_i request
    simp only [request, true_and]
    split
    · rename_i type
      simp only [type, true_and]
      rw [empty_good (usbclassSetconfig_le ..), usbclassSetconfig_sent]
      simp
    · rename_i type
      simp [type, refused]
  rename_i notSet
  rw [or_iff_right fun both => notSet both.1]
  split
  · rename_i request
    simp only [request, true_and]
    split
    · rename_i type
      simp [type, ofBytes_good, apbridgeMxdesclen]
    · rename_i type
      simp [type, refused]
  rename_i notGet
  rw [or_iff_right fun both => notGet both.1]
  split
  · rename_i request
    simp only [request, true_and]
    split
    · rename_i alternate
      rw [empty_good (Int.le_refl 0)]
      simp [alternate]
    · rename_i other
      simp [other, refused]
  rename_i notAlternate
  rw [or_iff_right fun both => notAlternate both.1]
  split
  · rename_i request
    rw [and_iff_right request]
    split
    · rename_i interface
      obtain ⟨type, unset⟩ := interface
      rw [and_iff_right type, and_iff_right unset]
      split
      · rename_i index
        exact iff_of_false (refuse_good (by decide)) index
      · rename_i index
        exact iff_of_true (ofBytes_good.mpr (by decide)) (not_not.mp index)
    · rename_i other
      exact iff_of_false refused fun all => other ⟨all.1, all.2.1⟩
  · rename_i other
    exact iff_of_false refused fun both => other both.1

theorem transfer_good {state : CtrlReqState} :
    (⟨len, [], state, config⟩ : Reply).Good len hasSvc submit ↔
      (0 ≤ submit ∨ state = .greybusSvcReq → len ≤ apbridgeMxdesclen) ∧
        (state = .greybusSvcReq → hasSvc = true) := by
  constructor
  · intro good
    have data := good.data
    rw [Int.toNat_natCast, Nat.min_self] at data
    exact ⟨data, good.taken⟩
  · rintro ⟨short, taken⟩
    exact ⟨Int.natCast_nonneg len, Nat.zero_le _, fun used => (Nat.min_le_left _ _).trans (short used), taken⟩

theorem vendor_good : (vendor config ctrl).Good (getUint16 ctrl.len) hasSvc submit ↔
    ctrl.type &&& 0x1f = 0x01 ∧
      (ctrl.type &&& 0x80 ≠ 0 ∧ (ctrl.req = 0x01 ∨ ctrl.req = 0x02 ∨ ctrl.req = 0x03) ∨
        ctrl.type &&& 0x80 = 0 ∧ (ctrl.req = 0x01 ∧ hasSvc = true ∧ getUint16 ctrl.len ≤ apbridgeMxdesclen ∨
          ctrl.req = 0x03 ∧ (getUint16 ctrl.len ≤ apbridgeMxdesclen ∨ submit < 0))) := by
  have refused : ¬(Reply.refuse config (- EOPNOTSUPP)).Good (getUint16 ctrl.len) hasSvc submit := refuse_good (by decide)
  have magic : (Reply.ofBytes config deadbeef).Good (getUint16 ctrl.len) hasSvc submit := ofBytes_good.mpr (by decide)
  unfold vendor
  split
  · rename_i interface
    rw [and_iff_right interface]
    split
    · rename_i request
      split
      · rename_i toHost
        simp [request, toHost, magic]
      · rename_i fromHost
        rw [transfer_good]
        simp only [request, not_not.mp fromHost]
        simp [and_comm]
    split
    · rename_i request
      split
      · rename_i fromHost
        simp [request, fromHost, refused]
      · rename_i toHost
        simp [request, toHost, ofBytes_good]
    split
    · rename_i request
      split
      · rename_i toHost
        simp [request, toHost, magic]
      · rename_i fromHost
        rw [transfer_good]
        simp only [request, not_not.mp fromHost]
        simp [or_iff_not_imp_right]
    · rename_i svc log mapping
      simp [svc, log, mapping, refused]
  · rename_i other
    exact iff_of_false refused fun both => other both.1

end Reply

theorem reply_good_iff (s : Bridge) (setup : Setup) :
    (reply s.config setup.ctrl s.hispeed setup.outcome).Good (getUint16 setup.ctrl.len) s.hasSvc setup.submit ↔
      Answered s setup := by
  have refused : ¬(Reply.refuse s.config (- EOPNOTSUPP)).Good (getUint16 setup.ctrl.len) s.hasSvc setup.submit :=
    refuse_good (by decide)
  unfold reply Answered
  split
  · rename_i type
    rw [standard_good]
    simp [type]
  split
  · rename_i type
    rw [vendor_good]
    simp [type]
  · rename_i standard vendor
    refine iff_of_false refused ?_
    rintro (⟨type, -⟩ | ⟨type, -⟩)
    · exact standard type
    · exact vendor type

/-- The control request is on its list or lost. -/
def Single (s : Bridge) : Prop :=
  s.pool.queue .ctrlreq = usbclassBind.queue .ctrlreq ∨ s.pool.queue .ctrlreq = []

section Step
variable {s : Bridge}

theorem usbclassEp0incomplete_conserved (s : Bridge) (taken : s.pool.queue .ctrlreq = [])
    (running : s.halted = false) (len : ℕ) (state : CtrlReqState) :
    Single (usbclassEp0incomplete s 0 len state) ∧
      (Conserved (usbclassEp0incomplete s 0 len state) ↔ s.reach ≤ apbridgeMxdesclen ∧
        (state = .greybusSvcReq → s.hasSvc = true ∧ len ≤ apbridgeMxdesclen)) := by
  have back : (putRequest s.pool .ctrlreq 0).queue .ctrlreq = usbclassBind.queue .ctrlreq := by
    change update s.pool.queue .ctrlreq (s.pool.queue .ctrlreq ++ [0]) .ctrlreq = _
    rw [update_self, taken]
    rfl
  unfold usbclassEp0incomplete
  cases state with
  | usbReq | greybusLog =>
    refine ⟨Or.inl back, fun conserved => ⟨conserved.inside, nofun⟩, fun inside => ⟨running, back, inside.1⟩⟩
  | greybusEpMapping =>
    refine ⟨Or.inl back, fun conserved => ⟨(max_le_iff.mp conserved.inside).1, nofun⟩, fun inside => ?_⟩
    exact ⟨running, back, max_le inside.1 (by decide)⟩
  | greybusSvcReq =>
    dsimp only
    split
    · rename_i hasSvc
      refine ⟨Or.inl back, fun conserved => ?_, fun inside => ?_⟩
      · obtain ⟨first, last⟩ := max_le_iff.mp conserved.inside
        exact ⟨first, fun _ => ⟨hasSvc, last⟩⟩
      · exact ⟨running, back, max_le inside.1 (inside.2 rfl).2⟩
    · rename_i missing
      refine ⟨Or.inr taken, fun conserved => ?_, fun inside => absurd (inside.2 rfl).1 missing⟩
      cases conserved.running

theorem dataStage_reach (s : Bridge) (toHost : Bool) (len : ℕ) (data : ℕ → UInt8) :
    (s.dataStage toHost len data).reach = max s.reach len := by
  unfold Bridge.dataStage
  split
  · rfl
  · change max s.reach ((List.range len).map data).length = _
    rw [List.length_map, List.length_range]

theorem dataStage_frame (s : Bridge) (toHost : Bool) (len : ℕ) (data : ℕ → UInt8) :
    (s.dataStage toHost len data).pool = s.pool ∧ (s.dataStage toHost len data).halted = s.halted ∧
      (s.dataStage toHost len data).hasSvc = s.hasSvc := by
  unfold Bridge.dataStage
  split
  · exact ⟨rfl, rfl, rfl⟩
  · exact ⟨rfl, rfl, rfl⟩

theorem usbclassSetup_conserved (stocked : s.pool.queue .ctrlreq = usbclassBind.queue .ctrlreq)
    (running : s.halted = false) (setup : Setup) :
    Single (usbclassSetup s setup) ∧
      (Conserved (usbclassSetup s setup) ↔ s.reach ≤ apbridgeMxdesclen ∧ Answered s setup) := by
  rw [← reply_good_iff]
  have queue : s.pool.queue .ctrlreq = [0] := stocked
  have found : getRequest s.pool .ctrlreq =
      some (0, { s.pool with queue := update s.pool.queue .ctrlreq [] }) := by
    unfold getRequest
    rw [queue]
  have taken : update s.pool.queue .ctrlreq [] .ctrlreq = [] := update_self ..
  unfold usbclassSetup
  simp only [found]
  generalize reply s.config setup.ctrl s.hispeed setup.outcome = answer
  generalize filled : ({ s with
      pool := { s.pool with queue := update s.pool.queue .ctrlreq [] }
      config := answer.config } : Bridge).fill answer.bytes = t
  have empty : t.pool.queue .ctrlreq = [] := filled ▸ taken
  have also : t.halted = false := filled ▸ running
  have same : t.hasSvc = s.hasSvc := filled ▸ rfl
  have reach : t.reach = max s.reach answer.bytes.length := filled ▸ rfl
  split
  · rename_i negative
    refine ⟨Or.inr empty, fun conserved => ?_, fun good => absurd good.2.sent (Int.not_le.mpr negative)⟩
    have back := conserved.back
    rw [empty] at back
    cases back
  rename_i sent
  split
  · rename_i refused
    obtain ⟨single, conserved⟩ := usbclassEp0incomplete_conserved t empty also
      (min (getUint16 setup.ctrl.len) answer.ret.toNat) answer.state
    refine ⟨single, conserved.trans ?_⟩
    rw [reach, max_le_iff, and_assoc, same]
    refine and_congr_right fun _ => ⟨fun ⟨short, svc⟩ => ⟨Int.not_lt.mp sent, short, ?_, fun state => (svc state).1⟩,
      fun good => ⟨good.short, fun state => ⟨good.taken state, good.data (Or.inr state)⟩⟩⟩
    rintro (accepted | state)
    · exact absurd refused (Int.not_lt.mpr accepted)
    · exact (svc state).2
  · rename_i accepted
    generalize staged : t.dataStage (setup.ctrl.type &&& 0x80 ≠ 0) (min (getUint16 setup.ctrl.len) answer.ret.toNat)
      setup.data = u
    obtain ⟨pool, halted, hasSvc⟩ := dataStage_frame t (setup.ctrl.type &&& 0x80 ≠ 0)
      (min (getUint16 setup.ctrl.len) answer.ret.toNat) setup.data
    have stage := dataStage_reach t (setup.ctrl.type &&& 0x80 ≠ 0)
      (min (getUint16 setup.ctrl.len) answer.ret.toNat) setup.data
    rw [staged] at pool halted hasSvc stage
    obtain ⟨single, conserved⟩ := usbclassEp0incomplete_conserved u (pool ▸ empty) (halted.trans also)
      (min (getUint16 setup.ctrl.len) answer.ret.toNat) answer.state
    refine ⟨single, conserved.trans ?_⟩
    rw [stage, reach, max_le_iff, max_le_iff, and_assoc, and_assoc, hasSvc, same]
    refine and_congr_right fun _ => ⟨fun ⟨short, data, svc⟩ => ?_, fun good => ?_⟩
    · exact ⟨Int.not_lt.mp sent, short, fun _ => data, fun state => (svc state).1⟩
    · have data := good.data (Or.inl (Int.not_lt.mp accepted))
      exact ⟨good.short, data, fun state => ⟨good.taken state, data⟩⟩

/-- A setup packet conserves the control request exactly when it is answered. -/
theorem step_conserved (single : Single s) {setup : Setup} {next : Bridge} (stepped : step s setup = some next) :
    Single next ∧ (Conserved next ↔ Conserved s ∧ Answered s setup) := by
  obtain ⟨running, stepped⟩ := Option.ite_none_left_eq_some.mp stepped
  obtain rfl := Option.some.inj stepped
  have running := Bool.eq_false_iff.mpr running
  cases single with
  | inl stocked =>
    obtain ⟨single, conserved⟩ := usbclassSetup_conserved stocked running setup
    refine ⟨single, conserved.trans (and_congr_left fun _ => ?_)⟩
    exact ⟨fun inside => ⟨running, stocked, inside⟩, Conserved.inside⟩
  | inr empty =>
    have halts : usbclassSetup s setup = { s with halted := true } := by
      unfold usbclassSetup getRequest
      rw [empty]
    rw [halts]
    constructor
    · exact Or.inr empty
    · constructor
      · intro conserved
        cases conserved.running
      · intro both
        have back := both.1.back
        rw [empty] at back
        cases back

end Step

/-- The control request is conserved in exactly the runs in which every setup packet is answered. -/
theorem control_request_conserved_iff (hispeed hasSvc : Bool) (setups : List Setup) (s : Bridge)
    (ran : run step (.bound hispeed hasSvc) setups = some s) :
    Conserved s ↔ Guarded step Answered (.bound hispeed hasSvc) setups := by
  have start : Conserved (.bound hispeed hasSvc) := ⟨rfl, rfl, Nat.zero_le _⟩
  have last := run_iff_guarded step Answered Single Conserved
    (fun _ _ _ single stepped => step_conserved single stepped) _ s setups (Or.inl start.back) ran
  exact last.trans (and_iff_right start)

/-- The host reads the device descriptor and maps an endpoint, and the second transfer is refused. -/
def descriptorAndMapping : List Setup :=
  [⟨⟨0x80, 0x06, (0, 0x01), (0, 0), (18, 0)⟩, 0, 0, fun _ => 0⟩, ⟨⟨0x41, 0x03, (0, 0), (0, 0), (4, 0)⟩, 0, -5, fun _ => 0⟩]

theorem control_request_conserved_iff_mapping :
    ∃ s, run step (.bound true false) descriptorAndMapping = some s ∧ s.reach = 18 ∧ Conserved s := by
  refine exists_final Bridge.reach 18 (by decide +kernel) fun s ran reach => ?_
  refine ⟨reach, (control_request_conserved_iff true false _ s ran).mpr ?_⟩
  decide +kernel

/-- The host reads a descriptor that does not exist, and then the configuration. -/
theorem usbclass_setup_loses_request :
    ∃ s, run step (.bound true false) [⟨⟨0x80, 0x06, (0, 0x09), (0, 0), (18, 0)⟩, 0, 0, fun _ => 0⟩,
        ⟨⟨0x80, 0x08, (0, 0), (0, 0), (1, 0)⟩, 0, 0, fun _ => 0⟩] = some s ∧ s.halted = true ∧ ¬Conserved s := by
  refine exists_final Bridge.halted true (by decide +kernel) fun s ran halted => ?_
  refine ⟨halted, fun conserved => ?_⟩
  rw [conserved.running] at halted
  cases halted

end Phabos.ApBridge.Control
