import Phabos.Construction.Svc.TsbSwitch

namespace Phabos.Switch
open List

/-- The place of a port's attributes, as `switch_set_port_l4attr` chooses it -/
def portAddress (portid : BitVec 8) : Address := if portid = switchPortId then .own portid else .peer portid

def UniproConnection.side0 (c : UniproConnection) (values : Values) (attrid : Attribute) : BitVec 32 :=
  values (portAddress c.portId0) attrid c.cportId0

def UniproConnection.side1 (c : UniproConnection) (values : Values) (attrid : Attribute) : BitVec 32 :=
  values (portAddress c.portId1) attrid c.cportId1

/-- The two sides are different CPorts. -/
def UniproConnection.Distinct (c : UniproConnection) : Prop := (c.portId0, c.cportId0) ≠ (c.portId1, c.cportId1)

/-- Whether the connection has end-to-end flow control or controlled segment dropping -/
def UniproConnection.usesBufferSpace (constants : CportConstants) (c : UniproConnection) : Prop :=
  c.flags &&& constants.flagsE2efc ≠ 0 ∨ c.flags &&& constants.flagsCsdN = 0

/-- Each side's `T_PeerBufferSpace` is the other side's `T_LocalBufferSpace`. -/
def UniproConnection.BufferSpaceMatched (c : UniproConnection) (values : Values) : Prop :=
  c.side0 values .peerBufferSpace = c.side1 values .localBufferSpace ∧
    c.side1 values .peerBufferSpace = c.side0 values .localBufferSpace

/-- No attribute of a side but its connection state is written while the side is connected. -/
def UniproConnection.Quiet (c : UniproConnection) (writes : List (Write × Values)) : Prop :=
  ∀ entry ∈ writes, entry.1.attrid ≠ .connectionState →
    ((entry.1.address, entry.1.selector) = (portAddress c.portId0, c.cportId0) →
        c.side0 entry.2 .connectionState ≠ 1) ∧
      ((entry.1.address, entry.1.selector) = (portAddress c.portId1, c.cportId1) →
        c.side1 entry.2 .connectionState ≠ 1)

/-- The two sides are configured for each other. -/
structure SetUp (constants : CportConstants) (c : UniproConnection) (initial : Values) (final : AttributeStore) :
    Prop where
  peerDeviceId : c.side0 final.values .peerDeviceId = c.deviceId1.setWidth 32 ∧
    c.side1 final.values .peerDeviceId = c.deviceId0.setWidth 32
  peerCportId : c.side0 final.values .peerCportId = c.cportId1.setWidth 32 ∧
    c.side1 final.values .peerCportId = c.cportId0.setWidth 32
  equal : ∀ attrid ∈ [.trafficClass, .protocolId, .txTokenValue, .rxTokenValue, .cportFlags],
    c.side0 final.values attrid = c.side1 final.values attrid
  cportMode : c.side0 final.values .cportMode = constants.modeApplication ∧
    c.side1 final.values .cportMode = constants.modeApplication
  creditsToSend : c.side0 final.values .creditsToSend = 0 ∧ c.side1 final.values .creditsToSend = 0
  connected : c.side0 final.values .connectionState = 1 ∧ c.side1 final.values .connectionState = 1
  bufferSpace : c.usesBufferSpace constants → c.BufferSpaceMatched final.values
  localBufferSpace : c.side0 final.values .localBufferSpace = c.side0 initial .localBufferSpace ∧
    c.side1 final.values .localBufferSpace = c.side1 initial .localBufferSpace
  quiet : c.Quiet final.writes

section Pair
variable {c : UniproConnection} {s : AttributeStore} {attrid attrid' : Attribute} {val0 val1 : BitVec 32}

/-- The store after `switch_set_pair_attr` -/
def AttributeStore.pair (s : AttributeStore) (c : UniproConnection) (attrid : Attribute) (val0 val1 : BitVec 32) :
    AttributeStore :=
  (s.write ⟨portAddress c.portId0, attrid, c.cportId0, val0⟩).write ⟨portAddress c.portId1, attrid, c.cportId1, val1⟩

theorem switchSetPortL4attr_run (portid : BitVec 8) (selector : BitVec 16) (val : BitVec 32) :
    (switchSetPortL4attr attributeStoreOps portid attrid selector val).run s =
      (.ok (), s.write ⟨portAddress portid, attrid, selector, val⟩) := by
  unfold switchSetPortL4attr portAddress
  split <;> rfl

theorem switchGetPortL4attr_run (portid : BitVec 8) (selector : BitVec 16) :
    (switchGetPortL4attr attributeStoreOps portid attrid selector).run s =
      (.ok (s.values (portAddress portid) attrid selector), s) := by
  unfold switchGetPortL4attr portAddress
  split <;> rfl

theorem bind_run {α β : Type} {first : ExceptT Int (StateM AttributeStore) α}
    {rest : α → ExceptT Int (StateM AttributeStore) β} {next : AttributeStore} {value : α}
    (ran : first.run s = (.ok value, next)) : (first >>= rest).run s = (rest value).run next := by
  change StateT.bind first.run (ExceptT.bindCont rest) s = _
  unfold StateT.bind
  rw [ran]
  rfl

theorem switchSetPairAttr_run (c : UniproConnection) :
    (switchSetPairAttr attributeStoreOps c attrid val0 val1).run s = (.ok (), s.pair c attrid val0 val1) := by
  unfold switchSetPairAttr
  rw [bind_run (switchSetPortL4attr_run _ _ _)]
  exact switchSetPortL4attr_run _ _ _

theorem switchSetBufferSpace_run (c : UniproConnection) :
    (switchSetBufferSpace attributeStoreOps c).run s =
      (.ok (), s.pair c .localBufferSpace (c.side0 s.values .localBufferSpace)
        (c.side1 s.values .localBufferSpace)) := by
  unfold switchSetBufferSpace
  rw [bind_run (switchGetPortL4attr_run _ _), bind_run (switchGetPortL4attr_run _ _)]
  exact switchSetPairAttr_run c

theorem pair_values (address : Address) (selector : BitVec 16) :
    (s.pair c attrid val0 val1).values address attrid' selector =
      if attrid' = attrid ∧ address = portAddress c.portId1 ∧ selector = c.cportId1 then val1
      else if attrid' = attrid ∧ address = portAddress c.portId0 ∧ selector = c.cportId0 then val0
      else s.values address attrid' selector := by
  unfold AttributeStore.pair AttributeStore.write
  dsimp only
  by_cases attr : attrid' = attrid <;> simp only [attr, true_and, false_and, and_false, if_false]

theorem portAddress_injective {one other : BitVec 8} (same : portAddress one = portAddress other) : one = other := by
  unfold portAddress at same
  split at same <;> split at same
  · exact Address.own.inj same
  · cases same
  · cases same
  · exact Address.peer.inj same

theorem pair_side0 (distinct : c.Distinct) :
    c.side0 (s.pair c attrid val0 val1).values attrid' = if attrid' = attrid then val0 else c.side0 s.values attrid' := by
  unfold UniproConnection.side0
  rw [pair_values, if_neg]
  · simp only [and_self, and_true]
  · rintro ⟨-, place, selector⟩
    exact distinct (Prod.ext (portAddress_injective place) selector)

theorem pair_side1 :
    c.side1 (s.pair c attrid val0 val1).values attrid' = if attrid' = attrid then val1 else c.side1 s.values attrid' := by
  unfold UniproConnection.side1
  rw [pair_values]
  by_cases attr : attrid' = attrid
  · simp only [attr, and_self, if_true]
  · simp only [attr, false_and, if_false]

/-- Both sides are disconnected, and no write has been made while one of them was connected. -/
structure Disconnected (c : UniproConnection) (s : AttributeStore) : Prop where
  quiet : c.Quiet s.writes
  side0 : c.side0 s.values .connectionState = 0
  side1 : c.side1 s.values .connectionState = 0

theorem Disconnected.write {w : Write} (disconnected : Disconnected c s) (other : w.attrid ≠ .connectionState) :
    Disconnected c (s.write w) := by
  have still (address : Address) (selector : BitVec 16) :
      (s.write w).values address .connectionState selector = s.values address .connectionState selector :=
    if_neg fun same => other same.2.1.symm
  refine ⟨?_, (still _ _).trans disconnected.side0, (still _ _).trans disconnected.side1⟩
  intro entry there attr
  rcases mem_append.mp there with old | new
  · exact disconnected.quiet entry old attr
  · rw [mem_singleton.mp new, disconnected.side0, disconnected.side1]
    exact ⟨fun _ => by decide, fun _ => by decide⟩

theorem Disconnected.pair (disconnected : Disconnected c s) (other : attrid ≠ .connectionState) :
    Disconnected c (s.pair c attrid val0 val1) :=
  (disconnected.write other).write other

theorem quiet_connectionState (quiet : c.Quiet s.writes) :
    c.Quiet (s.pair c .connectionState val0 val1).writes := by
  intro entry there attr
  rcases mem_append.mp there with first | last
  · rcases mem_append.mp first with old | new
    · exact quiet entry old attr
    · exact absurd (congrArg (·.1.attrid) (mem_singleton.mp new)) attr
  · exact absurd (congrArg (·.1.attrid) (mem_singleton.mp last)) attr

end Pair

section Connect
variable {constants : CportConstants} {c : UniproConnection} {s : AttributeStore}

/-- The store after the flags of the CPorts have been set -/
def AttributeStore.prepare (s : AttributeStore) (c : UniproConnection) : AttributeStore :=
  (((((((s.pair c .connectionState 0 0).pair c .peerDeviceId (c.deviceId1.setWidth 32) (c.deviceId0.setWidth 32)).pair
    c .peerCportId (c.cportId1.setWidth 32) (c.cportId0.setWidth 32)).pair
    c .trafficClass (c.tc.setWidth 32) (c.tc.setWidth 32)).pair c .protocolId defaultProtocolId defaultProtocolId).pair
    c .txTokenValue defaultTokenValue defaultTokenValue).pair c .rxTokenValue defaultTokenValue defaultTokenValue).pair
    c .cportFlags (c.flags.setWidth 32) (c.flags.setWidth 32)

/-- The store after the part for the buffer spaces -/
def AttributeStore.space (s : AttributeStore) (constants : CportConstants) (c : UniproConnection) : AttributeStore :=
  bif c.e2efcEnabled constants || !c.e2efcEnabled constants && c.csdEnabled constants
    then s.pair c .localBufferSpace (c.side0 s.values .localBufferSpace) (c.side1 s.values .localBufferSpace)
    else s

/-- The store before the connection is established -/
def AttributeStore.finish (s : AttributeStore) (constants : CportConstants) (c : UniproConnection) : AttributeStore :=
  ((s.pair c .cportMode constants.modeApplication constants.modeApplication).pair c .creditsToSend 0 0).pair
    c .tsbMaxSegmentConfig defaultMaxSegmentConfig defaultMaxSegmentConfig

/-- `switch_cport_connect` as one function of the attributes. -/
theorem switchCportConnect_run :
    (switchCportConnect attributeStoreOps constants c).run s =
      (.ok (), (((s.prepare c).space constants c).finish constants c).pair c .connectionState 1 1) := by
  have space (s : AttributeStore) : (bif c.e2efcEnabled constants || !c.e2efcEnabled constants && c.csdEnabled constants
      then switchSetBufferSpace attributeStoreOps c else pure ()).run s = (.ok (), s.space constants c) := by
    unfold AttributeStore.space
    cases c.e2efcEnabled constants || !c.e2efcEnabled constants && c.csdEnabled constants
    · rfl
    · exact switchSetBufferSpace_run c
  unfold switchCportConnect
  simp only [bind_run (switchSetPairAttr_run c), bind_run (space _)]
  exact switchSetPairAttr_run c

/-- Setting the buffer space leaves the values of both sides. -/
theorem space_sides (constants : CportConstants) (s : AttributeStore) (distinct : c.Distinct) (attrid : Attribute) :
    c.side0 (s.space constants c).values attrid = c.side0 s.values attrid ∧
      c.side1 (s.space constants c).values attrid = c.side1 s.values attrid := by
  unfold AttributeStore.space
  cases c.e2efcEnabled constants || !c.e2efcEnabled constants && c.csdEnabled constants
  · exact ⟨rfl, rfl⟩
  · rw [cond_true, pair_side0 distinct, pair_side1]
    by_cases same : attrid = .localBufferSpace
    · simp only [same, if_true, and_self]
    · simp only [same, if_false, and_self]

theorem Disconnected.prepare (distinct : c.Distinct) (values : Values) :
    Disconnected c ((AttributeStore.boot values).prepare c) := by
  have start : Disconnected c ((AttributeStore.boot values).pair c .connectionState 0 0) := by
    refine ⟨quiet_connectionState nofun, ?_, ?_⟩
    · rw [pair_side0 distinct, if_pos rfl]
    · rw [pair_side1, if_pos rfl]
  unfold AttributeStore.prepare
  iterate 7 refine Disconnected.pair ?_ (by decide)
  exact start

theorem Disconnected.space (disconnected : Disconnected c s) (constants : CportConstants) : Disconnected c (s.space constants c) := by
  unfold AttributeStore.space
  cases c.e2efcEnabled constants || !c.e2efcEnabled constants && c.csdEnabled constants
  · exact disconnected
  · exact disconnected.pair (by decide)

theorem Disconnected.finish (disconnected : Disconnected c s) (constants : CportConstants) : Disconnected c (s.finish constants c) :=
  ((disconnected.pair (by decide)).pair (by decide)).pair (by decide)

end Connect

/-- `switch_cport_connect` succeeds, and the sides are configured for each other if and only if the connection does not
use the buffer spaces or they had been matched before. -/
theorem switch_cport_connect_sets_up_iff (constants : CportConstants) (c : UniproConnection) (initial : Values)
    (distinct : c.Distinct) :
    ∃ final, (switchCportConnect attributeStoreOps constants c).run (AttributeStore.boot initial) = (.ok (), final) ∧
      (SetUp constants c initial final ↔ (c.usesBufferSpace constants → c.BufferSpaceMatched initial)) := by
  refine ⟨_, switchCportConnect_run, ?_⟩
  have disconnected := ((Disconnected.prepare distinct initial).space constants).finish constants
  have side0 (s : AttributeStore) (attrid : Attribute) := (space_sides constants s distinct attrid).1
  have side1 (s : AttributeStore) (attrid : Attribute) := (space_sides constants s distinct attrid).2
  constructor
  · intro setUp used
    have matched := setUp.bufferSpace used
    simp only [UniproConnection.BufferSpaceMatched, AttributeStore.finish, AttributeStore.prepare, pair_side0 distinct,
      pair_side1, side0, side1, reduceCtorEq, if_false] at matched
    exact matched
  · intro matched
    refine ⟨?_, ?_, ?_, ?_, ?_, ?_, ?_, ?_, quiet_connectionState disconnected.quiet⟩
    all_goals simp only [UniproConnection.BufferSpaceMatched, AttributeStore.finish, AttributeStore.prepare,
      pair_side0 distinct, pair_side1, side0, side1, reduceCtorEq, if_false, if_true, and_self, forall_mem_cons]
    · exact ⟨trivial, trivial, trivial, trivial, trivial, nofun⟩
    · exact matched
    · exact ⟨rfl, rfl⟩

/-- A connection from a port of the switch itself to a device, with flow control and matched buffer spaces -/
theorem switch_cport_connect_sets_up_iff_matched :
    ∃ final, (switchCportConnect attributeStoreOps ⟨1, 2, 1⟩ ⟨14, 0, 0, 3, 1, 4, 0, 7⟩).run
        (AttributeStore.boot fun _ _ _ => 64) = (.ok (), final) ∧
      SetUp ⟨1, 2, 1⟩ ⟨14, 0, 0, 3, 1, 4, 0, 7⟩ (fun _ _ _ => 64) final := by
  obtain ⟨final, ran, setUp⟩ := switch_cport_connect_sets_up_iff ⟨1, 2, 1⟩ ⟨14, 0, 0, 3, 1, 4, 0, 7⟩
    (fun _ _ _ => 64) (by unfold UniproConnection.Distinct; decide)
  exact ⟨final, ran, setUp.mpr fun _ => ⟨rfl, rfl⟩⟩

/-- The buffer spaces of two devices that have not been matched before are not matched. -/
theorem switch_cport_connect_keeps_peer_buffer_space :
    ∃ final, (switchCportConnect attributeStoreOps ⟨1, 2, 1⟩ ⟨0, 1, 0, 1, 2, 0, 0, 7⟩).run
        (AttributeStore.boot fun _ attrid _ => if attrid = .localBufferSpace then 64 else 0) = (.ok (), final) ∧
      UniproConnection.Distinct ⟨0, 1, 0, 1, 2, 0, 0, 7⟩ ∧
      ¬SetUp ⟨1, 2, 1⟩ ⟨0, 1, 0, 1, 2, 0, 0, 7⟩
        (fun _ attrid _ => if attrid = .localBufferSpace then 64 else 0) final := by
  refine ⟨_, switchCportConnect_run, by unfold UniproConnection.Distinct; decide, fun setUp => ?_⟩
  have matched := (setUp.bufferSpace (.inl (by decide))).1
  exact absurd matched (by decide +kernel)

section Several
variable {constants : CportConstants} {c : UniproConnection} {s t : AttributeStore} {place : Address × BitVec 16}

/-- Where the attributes of the two CPorts are -/
def UniproConnection.places (c : UniproConnection) : List (Address × BitVec 16) :=
  [(portAddress c.portId0, c.cportId0), (portAddress c.portId1, c.cportId1)]

/-- The two CPorts have the same attributes in both stores. -/
def UniproConnection.Alike (c : UniproConnection) (s t : AttributeStore) : Prop :=
  ∀ place ∈ c.places, ∀ attrid, s.values place.1 attrid place.2 = t.values place.1 attrid place.2

/-- The store that `switch_cport_connect` leaves -/
def AttributeStore.connect (s : AttributeStore) (constants : CportConstants) (c : UniproConnection) : AttributeStore :=
  ((switchCportConnect attributeStoreOps constants c).run s).2

/-- Stores that agree at the places of a connection agree there after it. -/
theorem connect_alike (alike : c.Alike s t) : c.Alike (s.connect constants c) (t.connect constants c) := by
  have pair {s t : AttributeStore} (alike : c.Alike s t) {attrid : Attribute} {val0 val1 : BitVec 32} :
      c.Alike (s.pair c attrid val0 val1) (t.pair c attrid val0 val1) := by
    intro place there attrid'
    simp only [pair_values, alike place there]
  have prepared : c.Alike (s.prepare c) (t.prepare c) := by
    unfold AttributeStore.prepare
    iterate 8 apply pair
    exact alike
  unfold AttributeStore.connect
  rw [switchCportConnect_run, switchCportConnect_run]
  unfold AttributeStore.finish AttributeStore.space UniproConnection.side0 UniproConnection.side1
  iterate 4 apply pair
  rw [prepared _ (.head _), prepared _ (.tail _ (.head _))]
  cases c.e2efcEnabled constants || !c.e2efcEnabled constants && c.csdEnabled constants
  · exact prepared
  · exact pair prepared

/-- A connection leaves all attributes of other places alone. -/
theorem connect_elsewhere (elsewhere : place ∉ c.places) (attrid : Attribute) :
    (s.connect constants c).values place.1 attrid place.2 = s.values place.1 attrid place.2 := by
  simp only [UniproConnection.places, mem_cons, not_mem_nil, or_false, not_or, Prod.ext_iff] at elsewhere
  have pair {s : AttributeStore} {attrid' : Attribute} {val0 val1 : BitVec 32} :
      (s.pair c attrid' val0 val1).values place.1 attrid place.2 = s.values place.1 attrid place.2 := by
    simp only [pair_values, elsewhere, and_false, if_false]
  unfold AttributeStore.connect
  rw [switchCportConnect_run]
  unfold AttributeStore.finish AttributeStore.space AttributeStore.prepare
  cases c.e2efcEnabled constants || !c.e2efcEnabled constants && c.csdEnabled constants <;>
    simp only [pair, cond_true, cond_false]

/-- Connections that share no CPort do not disturb each other: set up one after another, each of them ends as if it had
been set up alone, and no other CPort is changed. -/
theorem connections_stay_apart (constants : CportConstants) (connections : List UniproConnection) (s : AttributeStore)
    (apart : connections.Pairwise fun one other => ∀ place ∈ one.places, place ∉ other.places) :
    ∃ final, (connections.forM (switchCportConnect attributeStoreOps constants)).run s = (.ok (), final) ∧
      (∀ c ∈ connections, c.Alike final (s.connect constants c)) ∧
      ∀ place, (∀ c ∈ connections, place ∉ c.places) →
        ∀ attrid, final.values place.1 attrid place.2 = s.values place.1 attrid place.2 := by
  induction connections generalizing s with
  | nil => exact ⟨s, rfl, nofun, fun _ _ _ => rfl⟩
  | cons c rest ih =>
    obtain ⟨far, apart⟩ := pairwise_cons.mp apart
    obtain ⟨final, ran, alike, elsewhere⟩ := ih (s.connect constants c) apart
    refine ⟨final, ?_, fun other there => ?_, fun place outside attrid => ?_⟩
    · unfold AttributeStore.connect at ran
      rw [switchCportConnect_run] at ran
      exact (bind_run switchCportConnect_run).trans ran
    · cases there with
      | head => exact fun place mine => elsewhere place fun other later => far other later place mine
      | tail _ later =>
        have before : other.Alike (s.connect constants c) s :=
          fun place its => connect_elsewhere fun mine => far other later place mine its
        exact fun place its attrid => (alike other later place its attrid).trans (connect_alike before place its attrid)
    · rw [elsewhere place fun other later => outside other (.tail _ later), connect_elsewhere (outside c (.head _))]

/-- A connection of the switch with a device, and one between two devices -/
theorem connections_stay_apart_two : ∃ final,
    ([⟨14, 0, 0, 3, 1, 4, 0, 7⟩, ⟨0, 1, 0, 1, 2, 0, 0, 7⟩].forM (switchCportConnect attributeStoreOps ⟨1, 2, 1⟩)).run
      (AttributeStore.boot fun _ _ _ => 64) = (.ok (), final) := by
  obtain ⟨final, ran, -⟩ := connections_stay_apart ⟨1, 2, 1⟩ [⟨14, 0, 0, 3, 1, 4, 0, 7⟩, ⟨0, 1, 0, 1, 2, 0, 0, 7⟩]
    (AttributeStore.boot fun _ _ _ => 64) (by decide)
  exact ⟨final, ran⟩

end Several

end Phabos.Switch
