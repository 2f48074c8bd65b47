import Phabos.Construction.Svc.ConnectionCreate
import Phabos.Library.Effects
import Phabos.Proof.Svc.ConnectionSetup

namespace Phabos.Switch
open Library List

/-- The connection states of all CPorts -/
abbrev States := Address → BitVec 16 → BitVec 32

def Values.states (values : Values) : States := fun address selector => values address .connectionState selector

structure StateWrite where
  address : Address
  selector : BitVec 16
  val : BitVec 32

def States.write (states : States) (w : StateWrite) : States := fun address selector =>
  if address = w.address ∧ selector = w.selector then w.val else states address selector

/-- The effect of some accesses, each with the connection state that it writes -/
def States.apply (states : States) : List (Option StateWrite) → States
  | [] => states
  | none :: trace => states.apply trace
  | some w :: trace => (states.write w).apply trace

section Trace
variable {fault : Option Fault} {α β : Type}

def FaultyStore.states (s : FaultyStore) : States := s.store.values.states

/-- Code that makes these accesses to CPorts. One that fails ends it before its effect. -/
structure Traced (fault : Option Fault) (code : ExceptT Int (StateM FaultyStore) α) (trace : List (Option StateWrite)) :
    Prop where
  succeeds : ∀ s, (∀ f ∈ fault, ∀ k < trace.length, f.place ≠ .cport (s.accesses + k)) →
    ∃ value next, runFrom code s = (.ok value, next) ∧ next.accesses = s.accesses + trace.length ∧
      next.states = s.states.apply trace
  fails : ∀ s, ∀ f ∈ fault, ∀ k < trace.length, f.place = .cport (s.accesses + k) →
    ∃ next, runFrom code s = (.error f.rc, next) ∧ next.accesses = s.accesses + k + 1 ∧
      next.states = s.states.apply (trace.take k)

theorem States.apply_append (states : States) (first last : List (Option StateWrite)) :
    states.apply (first ++ last) = (states.apply first).apply last := by
  induction first generalizing states with
  | nil => rfl
  | cons access first ih =>
    cases access with
    | none => exact ih states
    | some w => exact ih (states.write w)

theorem Traced.bind {first : ExceptT Int (StateM FaultyStore) α} {next : α → ExceptT Int (StateM FaultyStore) β}
    {trace later : List (Option StateWrite)} (traced : Traced fault first trace)
    (rest : ∀ value, Traced fault (next value) later) : Traced fault (first >>= next) (trace ++ later) := by
  constructor
  · intro s clear
    obtain ⟨value, middle, ran, accesses, states⟩ := traced.succeeds s fun f there k less =>
      clear f there k (by rw [length_append]; omega)
    obtain ⟨last, after, ran', accesses', states'⟩ := (rest value).succeeds middle fun f there k less => by
      rw [accesses, Nat.add_assoc]
      exact clear f there (trace.length + k) (by rw [length_append]; omega)
    refine ⟨last, after, ?_, ?_, ?_⟩
    · rw [runFrom_bind, ran]
      exact ran'
    · rw [accesses', accesses, length_append, Nat.add_assoc]
    · rw [states', states, States.apply_append]
  · intro s f there k less place
    rw [length_append] at less
    by_cases early : k < trace.length
    · obtain ⟨after, ran, accesses, states⟩ := traced.fails s f there k early place
      refine ⟨after, ?_, accesses, ?_⟩
      · rw [runFrom_bind, ran]
      · rw [states, take_append_of_le_length (Nat.le_of_lt early)]
    · obtain ⟨value, middle, ran, accesses, states⟩ := traced.succeeds s fun g here i small same => by
        obtain rfl : f = g := Option.some.inj (there.symm.trans here)
        have equal := Place.cport.inj (place.symm.trans same)
        omega
      obtain ⟨after, ran', accesses', states'⟩ := (rest value).fails middle f there (k - trace.length) (by omega) (by
        rw [place, accesses]
        congr 1
        omega)
      have whole : trace.take k = trace := take_of_length_le (Nat.le_of_not_lt early)
      refine ⟨after, ?_, ?_, ?_⟩
      · rw [runFrom_bind, ran]
        exact ran'
      · rw [accesses', accesses, Nat.add_assoc s.accesses, Nat.add_sub_cancel' (Nat.le_of_not_lt early)]
      · rw [states', states, ← States.apply_append, take_append, whole]

theorem traced_pure (value : α) : Traced fault (pure value : ExceptT Int (StateM FaultyStore) α) [] :=
  ⟨fun s _ => ⟨value, s, rfl, rfl, rfl⟩, fun _ _ _ _ less => absurd less (Nat.not_lt_zero _)⟩

theorem accessCport_clear {s : FaultyStore} (clear : ∀ f ∈ fault, f.place ≠ .cport s.accesses) :
    runFrom (accessCport fault) s = (.ok (), { s with accesses := s.accesses + 1 }) := by
  show runFrom (failAt fault (.cport s.accesses)) { s with accesses := s.accesses + 1 } = _
  cases fault with
  | none => rfl
  | some f =>
    unfold failAt
    dsimp only
    rw [if_neg (clear f rfl)]
    rfl

theorem accessCport_fails {s : FaultyStore} {f : Fault} (there : f ∈ fault) (place : f.place = .cport s.accesses) :
    runFrom (accessCport fault) s = (.error f.rc, { s with accesses := s.accesses + 1 }) := by
  obtain rfl : fault = some f := there
  show runFrom (failAt (some f) (.cport s.accesses)) { s with accesses := s.accesses + 1 } = _
  unfold failAt
  dsimp only
  rw [if_pos place]
  rfl

theorem traced_access {effect : ExceptT Int (StateM FaultyStore) α} {w : Option StateWrite}
    (effected : ∀ s, ∃ value next, runFrom effect s = (.ok value, next) ∧ next.accesses = s.accesses ∧
      next.states = s.states.apply [w]) :
    Traced fault (accessCport fault >>= fun _ => effect) [w] := by
  constructor
  · intro s clear
    have first := accessCport_clear (s := s) fun f there => clear f there 0 Nat.one_pos
    obtain ⟨value, next, ran, accesses, states⟩ := effected { s with accesses := s.accesses + 1 }
    refine ⟨value, next, ?_, accesses, states⟩
    rw [runFrom_bind, first]
    exact ran
  · intro s f there k less place
    obtain rfl : k = 0 := Nat.lt_one_iff.mp less
    refine ⟨{ s with accesses := s.accesses + 1 }, ?_, rfl, rfl⟩
    rw [runFrom_bind, accessCport_fails there place]

/-- What an access writes to a connection state -/
def stateWrite (attrid : Attribute) (address : Address) (selector : BitVec 16) (val : BitVec 32) : Option StateWrite :=
  if attrid = .connectionState then some ⟨address, selector, val⟩ else none

theorem states_write (s : FaultyStore) (address : Address) (attrid : Attribute) (selector : BitVec 16)
    (val : BitVec 32) :
    (s.write ⟨address, attrid, selector, val⟩).states =
      s.states.apply [stateWrite attrid address selector val] := by
  unfold stateWrite
  by_cases state : attrid = .connectionState
  · rw [if_pos state]
    funext place number
    show (if place = address ∧ .connectionState = attrid ∧ number = selector then val else _) =
      if place = address ∧ number = selector then val else _
    rw [state]
    simp only [true_and]
    rfl
  · rw [if_neg state]
    funext place number
    exact if_neg fun same => state same.2.1.symm

theorem traced_set (portid : BitVec 8) (attrid : Attribute) (selector : BitVec 16) (val : BitVec 32) :
    Traced fault (switchSetPortL4attr (faultyOps fault) portid attrid selector val)
      [stateWrite attrid (portAddress portid) selector val] := by
  unfold switchSetPortL4attr portAddress
  split
  · exact traced_access fun s => ⟨(), _, rfl, rfl, states_write s _ _ _ _⟩
  · exact traced_access fun s => ⟨(), _, rfl, rfl, states_write s _ _ _ _⟩

theorem traced_get (portid : BitVec 8) (attrid : Attribute) (selector : BitVec 16) :
    Traced fault (switchGetPortL4attr (faultyOps fault) portid attrid selector) [none] := by
  unfold switchGetPortL4attr
  split
  · exact traced_access fun s => ⟨_, s, rfl, rfl, rfl⟩
  · exact traced_access fun s => ⟨_, s, rfl, rfl, rfl⟩

theorem traced_pair (c : UniproConnection) (attrid : Attribute) (val0 val1 : BitVec 32) :
    Traced fault (switchSetPairAttr (faultyOps fault) c attrid val0 val1)
      [stateWrite attrid (portAddress c.portId0) c.cportId0 val0,
        stateWrite attrid (portAddress c.portId1) c.cportId1 val1] :=
  (traced_set c.portId0 attrid c.cportId0 val0).bind fun _ => traced_set c.portId1 attrid c.cportId1 val1

theorem traced_plain (c : UniproConnection) {attrid : Attribute} (other : attrid ≠ .connectionState)
    (val0 val1 : BitVec 32) :
    Traced fault (switchSetPairAttr (faultyOps fault) c attrid val0 val1) [none, none] := by
  have plain (address : Address) (selector : BitVec 16) (val : BitVec 32) :
      stateWrite attrid address selector val = none := if_neg other
  have traced : Traced fault (switchSetPairAttr (faultyOps fault) c attrid val0 val1) [_, _] :=
    traced_pair c attrid val0 val1
  rwa [plain, plain] at traced

end Trace

instance (constants : CportConstants) (c : UniproConnection) : Decidable (c.usesBufferSpace constants) :=
  inferInstanceAs (Decidable (_ ∨ _))

/-- The number of the last access of `switch_cport_connect` -/
def lastAccess (constants : CportConstants) (c : UniproConnection) : ℕ :=
  if c.usesBufferSpace constants then 27 else 23

/-- A write to a connection state for each access of `switch_cport_connect` that makes one -/
def connectTrace (constants : CportConstants) (c : UniproConnection) : List (Option StateWrite) :=
  some ⟨portAddress c.portId0, c.cportId0, 0⟩ :: some ⟨portAddress c.portId1, c.cportId1, 0⟩ ::
    (List.replicate (lastAccess constants c - 3) none ++
      [some ⟨portAddress c.portId0, c.cportId0, 1⟩, some ⟨portAddress c.portId1, c.cportId1, 1⟩])

section Connect
variable {fault : Option Fault}

section
variable (constants : CportConstants) (c : UniproConnection)

theorem traced_bufferSpace :
    Traced fault (bif c.e2efcEnabled constants || !c.e2efcEnabled constants && c.csdEnabled constants
        then switchSetBufferSpace (faultyOps fault) c else pure ())
      (replicate (if c.usesBufferSpace constants then 4 else 0) none) := by
  have uses : (c.e2efcEnabled constants || !c.e2efcEnabled constants && c.csdEnabled constants) =
      decide (c.usesBufferSpace constants) := by
    unfold UniproConnection.usesBufferSpace UniproConnection.e2efcEnabled UniproConnection.csdEnabled
    by_cases flow : c.flags &&& constants.flagsE2efc = 0#8 <;> simp [flow]
  rw [uses]
  by_cases used : c.usesBufferSpace constants
  · rw [decide_eq_true used, if_pos used]
    unfold switchSetBufferSpace
    exact (traced_get c.portId0 .localBufferSpace c.cportId0).bind fun val0 =>
      (traced_get c.portId1 .localBufferSpace c.cportId1).bind fun val1 => traced_plain c (by decide) val0 val1
  · rw [decide_eq_false used, if_neg used]
    exact traced_pure ()

/-- The accesses of a connection, and what each one writes. -/
theorem traced_connect :
    Traced fault (switchCportConnect (faultyOps fault) constants c) (connectTrace constants c) := by
  have quiet : replicate (lastAccess constants c - 3) (none : Option StateWrite) =
      [none, none] ++ ([none, none] ++ ([none, none] ++ ([none, none] ++ ([none, none] ++ ([none, none] ++
        ([none, none] ++ (replicate (if c.usesBufferSpace constants then 4 else 0) none ++ ([none, none] ++
          ([none, none] ++ [none, none]))))))))) := by
    unfold lastAccess
    split <;> rfl
  unfold connectTrace
  rw [quiet]
  simp only [append_assoc]
  unfold switchCportConnect
  refine (traced_pair c .connectionState 0 0).bind fun _ => ?_
  iterate 7 refine (traced_plain c (by decide) _ _).bind fun _ => ?_
  refine (traced_bufferSpace constants c).bind fun _ => ?_
  iterate 3 refine (traced_plain c (by decide) _ _).bind fun _ => ?_
  exact traced_pair c .connectionState 1 1

theorem three_le_lastAccess : 3 ≤ lastAccess constants c := by
  unfold lastAccess
  split <;> decide

theorem connectTrace_length : (connectTrace constants c).length = lastAccess constants c + 1 := by
  have three := three_le_lastAccess constants c
  unfold connectTrace
  simp only [length_cons, length_append, length_replicate, length_nil]
  omega

end

theorem States.apply_replicate (states : States) (count : ℕ) : states.apply (replicate count none) = states := by
  induction count with
  | zero => rfl
  | succ count ih => exact ih

/-- The connection states that a failure of an access leaves: both are cleared first, and then the first one is set by
the access before the last one. -/
theorem apply_connectTrace (constants : CportConstants) (c : UniproConnection) (states : States) {n : ℕ}
    (inside : n ≤ lastAccess constants c) :
    states.apply ((connectTrace constants c).take n) =
      if n = 0 then states
      else if n = 1 then states.write ⟨portAddress c.portId0, c.cportId0, 0⟩
      else if n = lastAccess constants c then
        ((states.write ⟨portAddress c.portId0, c.cportId0, 0⟩).write ⟨portAddress c.portId1, c.cportId1, 0⟩).write
          ⟨portAddress c.portId0, c.cportId0, 1⟩
      else (states.write ⟨portAddress c.portId0, c.cportId0, 0⟩).write ⟨portAddress c.portId1, c.cportId1, 0⟩ := by
  have three := three_le_lastAccess constants c
  match n with
  | 0 => rfl
  | 1 => rfl
  | k + 2 =>
    rw [if_neg (Nat.succ_ne_zero _), if_neg (by omega)]
    unfold connectTrace
    rw [take_succ_cons, take_succ_cons, take_append, length_replicate, take_replicate]
    by_cases last : k + 2 = lastAccess constants c
    · have one : k - (lastAccess constants c - 3) = 1 := by omega
      rw [if_pos last, one]
      show States.apply _ (_ ++ _) = _
      rw [States.apply_append, States.apply_replicate]
      rfl
    · have none : k - (lastAccess constants c - 3) = 0 := by omega
      rw [if_neg last, none, take_zero, append_nil]
      exact States.apply_replicate _ _

end Connect

section Links
variable {fault : Option Fault} {selindexNull : BitVec 16} {indication : ℕ → BitVec 32}

/-- No CPort has been accessed yet. -/
def Untouched (store : AttributeStore) (s : FaultyStore) : Prop := s.store = store ∧ s.accesses = 0

variable {store : AttributeStore}

theorem keeps_failAt (place : Place) : Keeps (Untouched store) (failAt fault place) := by
  intro s held
  unfold failAt
  cases fault with
  | none => exact held
  | some f =>
    dsimp only
    split <;> exact held

theorem keeps_accessLink : Keeps (Untouched store) (accessLink fault) := fun s held =>
  keeps_failAt (.link s.linkAccesses) { s with linkAccesses := s.linkAccesses + 1 } held

theorem keeps_set (portId : BitVec 8) (attrid : LinkAttribute) (val : BitVec 32) :
    Keeps (Untouched store) ((faultyLinkOps fault selindexNull indication).set portId attrid val) :=
  keeps_accessLink.bind fun _ => keeps_modify fun _ held => held

theorem keeps_getPowerModeInd (portId : BitVec 8) :
    Keeps (Untouched store) ((faultyLinkOps fault selindexNull indication).getPowerModeInd portId) :=
  keeps_accessLink.bind fun _ => keeps_get.bind fun _ => keeps_pure _

theorem keeps_testLink (portId : BitVec 8) :
    Keeps (Untouched store) ((faultyLinkOps fault selindexNull indication).testLink portId) :=
  keeps_accessLink.bind fun _ => keeps_get.bind fun _ => keeps_pure _

theorem keeps_disjunction {accesses : ExceptT Int (StateM FaultyStore) Unit} (kept : Keeps (Untouched store) accesses) :
    Keeps (Untouched store) (disjunction accesses) :=
  kept.tryCatch fun _ => keeps_throw 1

theorem keeps_pollPowerMode (portId : BitVec 8) (tries : ℕ) :
    Keeps (Untouched store) (pollPowerMode (faultyLinkOps fault selindexNull indication) portId tries) := by
  induction tries with
  | zero => exact keeps_throw _
  | succ tries ih =>
    refine (keeps_getPowerModeInd portId).bind fun val => ?_
    split
    · exact keeps_pure ()
    split
    · exact ih
    · exact keeps_throw _

theorem keeps_switchApplyPowerMode (portId : BitVec 8) (pwrMode : BitVec 32) :
    Keeps (Untouched store) (switchApplyPowerMode (faultyLinkOps fault selindexNull indication) portId pwrMode) := by
  refine Keeps.bind (Keeps.tryCatch ?_ fun _ => keeps_pure ()) fun _ => ?_
  · exact (keeps_getPowerModeInd portId).bind fun _ => keeps_pure ()
  refine (keeps_set portId .pwrMode pwrMode).bind fun _ => (keeps_pollPowerMode portId 100).bind fun _ => ?_
  exact (keeps_testLink portId).bind fun _ => keeps_pure ()

theorem keeps_switchLinkPowerSetDefault (fastMode : BitVec 32) (portId : BitVec 8) :
    Keeps (Untouched store)
      (switchLinkPowerSetDefault (faultyLinkOps fault selindexNull indication) fastMode portId) := by
  have tx (gear nlanes : BitVec 32) : Keeps (Untouched store)
      (switchConfigureLinkTx (faultyLinkOps fault selindexNull indication) portId gear nlanes) :=
    keeps_disjunction ((keeps_set portId _ _).bind fun _ => (keeps_set portId _ _).bind fun _ => keeps_set portId _ _)
  have rx (gear nlanes : BitVec 32) : Keeps (Untouched store)
      (switchConfigureLinkRx (faultyLinkOps fault selindexNull indication) portId gear nlanes) :=
    keeps_disjunction ((keeps_set portId _ _).bind fun _ => (keeps_set portId _ _).bind fun _ => keeps_set portId _ _)
  unfold switchLinkPowerSetDefault switchConfigureLinkHs
  split
  · refine (keeps_disjunction ((tx _ _).bind fun _ => rx _ _)).bind fun _ => ?_
    refine (keeps_set portId _ _).bind fun _ => (keeps_set portId _ _).bind fun _ => ?_
    exact keeps_switchApplyPowerMode portId _
  · exact keeps_throw _

theorem keeps_configureLinks (constants : SetUpConstants) (c : UniproConnection) :
    Keeps (Untouched store) (configureLinks (faultyLinkOps fault selindexNull indication) constants c) := by
  unfold configureLinks
  split
  · exact (keeps_switchLinkPowerSetDefault _ _).bind fun _ => keeps_switchLinkPowerSetDefault _ _
  · exact keeps_pure ()

end Links

/-- What surrounds the set-up: the access that fails, and the answers of the hardware of the links -/
structure Environment where
  fault : Option Fault
  selindexNull : BitVec 16
  indication : ℕ → BitVec 32

section Disconnect
variable {fault : Option Fault} {c : UniproConnection} {setUp : ExceptT Int (StateM FaultyStore) Unit}
  {s middle : FaultyStore}

/-- The CPort of a byte that `switch_cport_disconnect` writes to -/
def byteSelector (cportId : BitVec 16) : BitVec 16 := (cportId.setWidth 8).setWidth 16

/-- The connection states after `switch_cport_disconnect` -/
def States.disconnected (states : States) (c : UniproConnection) : States :=
  (states.write ⟨.peer c.portId0, byteSelector c.cportId0, 0⟩).write ⟨.peer c.portId1, byteSelector c.cportId1, 0⟩

/-- The failing access has been made, or is none of the CPorts. -/
def Passed (fault : Option Fault) (s : FaultyStore) : Prop :=
  ∀ f ∈ fault, ∀ number, f.place = .cport number → number < s.accesses

theorem fails_run {access : ExceptT Int (StateM FaultyStore) Unit} {trace : List (Option StateWrite)}
    (traced : Traced fault access trace) (passed : Passed fault s) :
    ∃ next, runFrom (fails access) s = (.ok false, next) ∧ Passed fault next ∧
      next.states = s.states.apply trace := by
  obtain ⟨value, next, ran, accesses, states⟩ := traced.succeeds s fun f there k less same =>
    absurd (passed f there _ same) (Nat.not_lt.mpr (Nat.le_add_right _ _))
  refine ⟨next, ?_, fun f there number place => ?_, states⟩
  · unfold fails
    rw [runFrom_tryCatch, runFrom_bind, ran]
    rfl
  · rw [accesses]
    exact Nat.lt_of_lt_of_le (passed f there number place) (Nat.le_add_right _ _)

theorem traced_peerSet (portid : BitVec 8) (selector : BitVec 16) (val : BitVec 32) :
    Traced fault ((faultyOps fault).peerSet portid .connectionState selector val)
      [some ⟨.peer portid, selector, val⟩] :=
  traced_access fun s => ⟨(), _, rfl, rfl, states_write s _ _ _ _⟩

/-- A set-up that fails is followed by the disconnection. -/
theorem orDisconnect_error {rc : Int} (ran : runFrom setUp s = (.error rc, middle)) (passed : Passed fault middle) :
    ∃ next, runFrom (orDisconnect (faultyOps fault) c setUp) s = (.error rc, next) ∧
      next.states = middle.states.disconnected c := by
  obtain ⟨first, ran0, passed0, states0⟩ :=
    fails_run (traced_peerSet c.portId0 (byteSelector c.cportId0) 0) passed
  obtain ⟨second, ran1, -, states1⟩ :=
    fails_run (traced_peerSet c.portId1 (byteSelector c.cportId1) 0) passed0
  have disconnect : runFrom (switchCportDisconnect (faultyOps fault) c.portId0 (c.cportId0.setWidth 8) c.portId1
      (c.cportId1.setWidth 8)) middle = (.ok false, second) := by
    unfold byteSelector at ran0 ran1
    unfold switchCportDisconnect
    rw [runFrom_bind, ran0]
    dsimp only
    rw [runFrom_bind, ran1]
    rfl
  refine ⟨second, ?_, ?_⟩
  · unfold orDisconnect
    rw [runFrom_tryCatch, ran]
    dsimp only
    rw [runFrom_bind, disconnect]
    rfl
  · rw [states1, states0]
    rfl

theorem orDisconnect_ok (ran : runFrom setUp s = (.ok (), middle)) :
    runFrom (orDisconnect (faultyOps fault) c setUp) s = (.ok (), middle) := by
  unfold orDisconnect
  rw [runFrom_tryCatch, ran]

end Disconnect

section Undo

/-- The state in which `switch_connection_create` ends, and its result -/
def created (env : Environment) (constants : SetUpConstants) (c : UniproConnection) (s : FaultyStore) :
    Except Int Unit × FaultyStore :=
  runFrom (switchConnectionCreate (faultyLinkOps env.fault env.selindexNull env.indication) (faultyOps env.fault)
    constants (some c)) s

/-- Both CPorts, as they are addressed for the set-up, are disconnected, and no other connection state has changed. -/
structure Undone (c : UniproConnection) (initial final : Values) : Prop where
  side0 : c.side0 final .connectionState = 0
  side1 : c.side1 final .connectionState = 0
  others : ∀ address selector, (address, selector) ≠ (portAddress c.portId0, c.cportId0) →
    (address, selector) ≠ (portAddress c.portId1, c.cportId1) →
    final address .connectionState selector = initial address .connectionState selector

/-- The links cannot be configured. -/
def LinksFail (env : Environment) (constants : SetUpConstants) (c : UniproConnection) (s : FaultyStore) : Prop :=
  ∃ rc, (runFrom (configureLinks (faultyLinkOps env.fault env.selindexNull env.indication) constants c) s).1 = .error rc

/-- The set-up fails with this access to a CPort, or before the first one, as the links cannot be configured. -/
def FailsAt (env : Environment) (constants : SetUpConstants) (c : UniproConnection) (s : FaultyStore) (n : ℕ) : Prop :=
  LinksFail env constants c s ∧ n = 0 ∨
    ¬LinksFail env constants c s ∧ n ≤ lastAccess constants.cports c ∧ ∃ f ∈ env.fault, f.place = .cport n

/-- A CPort that a disconnection by `switch_cport_disconnect` reaches -/
def Reached (portId : BitVec 8) (cportId : BitVec 16) : Prop := portId ≠ switchPortId ∧ cportId.toNat < 256

/-- The disconnection of a side writes to one of the sides, or to a CPort that is not connected. -/
def Harmless (c : UniproConnection) (initial : Values) (portId : BitVec 8) (cportId : BitVec 16) : Prop :=
  (Address.peer portId, byteSelector cportId) = (portAddress c.portId0, c.cportId0) ∨
    (Address.peer portId, byteSelector cportId) = (portAddress c.portId1, c.cportId1) ∨
    initial (.peer portId) .connectionState (byteSelector cportId) = 0

/-- The disconnection is harmless, and it reaches each side that is connected when the set-up fails at an access. -/
structure Undoable (constants : CportConstants) (c : UniproConnection) (initial : Values) (n : ℕ) : Prop where
  write0 : Harmless c initial c.portId0 c.cportId0
  write1 : Harmless c initial c.portId1 c.cportId1
  side0 : Reached c.portId0 c.cportId0 ∨
    (n = 0 → c.side0 initial .connectionState = 0) ∧ n ≠ lastAccess constants c
  side1 : c.Distinct → Reached c.portId1 c.cportId1 ∨ (n ≤ 1 → c.side1 initial .connectionState = 0)

variable {c : UniproConnection} {portId : BitVec 8} {cportId : BitVec 16}

theorem byteSelector_eq_iff : byteSelector cportId = cportId ↔ cportId.toNat < 256 := by
  unfold byteSelector
  constructor
  · intro same
    have number := congrArg BitVec.toNat same
    rw [BitVec.toNat_setWidth, BitVec.toNat_setWidth] at number
    omega
  · intro small
    apply BitVec.eq_of_toNat_eq
    rw [BitVec.toNat_setWidth, BitVec.toNat_setWidth]
    omega

theorem byteSelector_lt (cportId : BitVec 16) : (byteSelector cportId).toNat < 256 := by
  unfold byteSelector
  rw [BitVec.toNat_setWidth, BitVec.toNat_setWidth]
  omega

theorem reached_of_written {port : BitVec 8} {number : BitVec 16}
    (same : (Address.peer port, byteSelector number) = (portAddress portId, cportId)) : Reached portId cportId := by
  obtain ⟨place, selector⟩ := Prod.mk.inj same
  refine ⟨fun own => ?_, selector ▸ byteSelector_lt number⟩
  unfold portAddress at place
  rw [if_pos own] at place
  cases place

theorem reached_written (reached : Reached portId cportId) :
    (Address.peer portId, byteSelector cportId) = (portAddress portId, cportId) := by
  unfold portAddress
  rw [if_neg reached.1, byteSelector_eq_iff.mpr reached.2]

theorem States.write_same (states : States) (address : Address) (selector : BitVec 16) (val : BitVec 32) :
    states.write ⟨address, selector, val⟩ address selector = val := if_pos ⟨rfl, rfl⟩

theorem States.write_other (states : States) {address place : Address} {selector number : BitVec 16}
    (other : (place, number) ≠ (address, selector)) (val : BitVec 32) :
    states.write ⟨address, selector, val⟩ place number = states place number :=
  if_neg fun same => other (Prod.ext same.1 same.2)

theorem States.disconnected_other (states : States) {address : Address} {selector : BitVec 16}
    (apart0 : (address, selector) ≠ (.peer c.portId0, byteSelector c.cportId0))
    (apart1 : (address, selector) ≠ (.peer c.portId1, byteSelector c.cportId1)) :
    states.disconnected c address selector = states address selector :=
  (States.write_other _ apart1 0).trans (States.write_other _ apart0 0)

theorem States.disconnected_first (states : States) :
    states.disconnected c (.peer c.portId0) (byteSelector c.cportId0) = 0 := by
  unfold States.disconnected
  by_cases same : (Address.peer c.portId0, byteSelector c.cportId0) = (.peer c.portId1, byteSelector c.cportId1)
  · rw [(Prod.mk.inj same).1, (Prod.mk.inj same).2]
    exact States.write_same _ _ _ 0
  · rw [States.write_other _ same]
    exact States.write_same _ _ _ 0

theorem States.disconnected_second (states : States) :
    states.disconnected c (.peer c.portId1) (byteSelector c.cportId1) = 0 := States.write_same _ _ _ 0

theorem disconnected_reached {states : States}
    (cleared : states.disconnected c (.peer portId) (byteSelector cportId) = 0) (reached : Reached portId cportId) :
    states.disconnected c (portAddress portId) cportId = 0 := by
  obtain ⟨place, selector⟩ := Prod.mk.inj (reached_written reached)
  rwa [place, selector] at cleared

theorem disconnected_unreached {states : States} (unreached : ¬Reached portId cportId) :
    states.disconnected c (portAddress portId) cportId = states (portAddress portId) cportId :=
  States.disconnected_other _ (fun same => unreached (reached_of_written same.symm))
    fun same => unreached (reached_of_written same.symm)

theorem sides_apart (distinct : c.Distinct) :
    (portAddress c.portId1, c.cportId1) ≠ (portAddress c.portId0, c.cportId0) := by
  intro same
  obtain ⟨place, selector⟩ := Prod.mk.inj same
  exact distinct (Prod.ext (portAddress_injective place).symm selector.symm)

section Left
variable {constants : CportConstants} {states : States} {n : ℕ}

theorem left_side0 (inside : n ≤ lastAccess constants c) :
    states.apply ((connectTrace constants c).take n) (portAddress c.portId0) c.cportId0 =
    if n = 0 then states (portAddress c.portId0) c.cportId0 else if n = lastAccess constants c then 1 else 0 := by
  have three := three_le_lastAccess constants c
  rw [apply_connectTrace constants c states inside]
  by_cases first : n = 0
  · rw [if_pos first, if_pos first]
  rw [if_neg first, if_neg first]
  by_cases second : n = 1
  · rw [if_pos second, if_neg (by omega)]
    exact States.write_same _ _ _ 0
  rw [if_neg second]
  by_cases last : n = lastAccess constants c
  · rw [if_pos last, if_pos last]
    exact States.write_same _ _ _ 1
  rw [if_neg last, if_neg last]
  by_cases same : (portAddress c.portId0, c.cportId0) = (portAddress c.portId1, c.cportId1)
  · rw [(Prod.mk.inj same).1, (Prod.mk.inj same).2]
    exact States.write_same _ _ _ 0
  · rw [States.write_other _ same]
    exact States.write_same _ _ _ 0

theorem left_side1 (inside : n ≤ lastAccess constants c)
    (apart : (portAddress c.portId1, c.cportId1) ≠ (portAddress c.portId0, c.cportId0)) :
    states.apply ((connectTrace constants c).take n) (portAddress c.portId1) c.cportId1 =
      if n ≤ 1 then states (portAddress c.portId1) c.cportId1 else 0 := by
  have three := three_le_lastAccess constants c
  rw [apply_connectTrace constants c states inside]
  by_cases first : n = 0
  · rw [if_pos first, if_pos (by omega)]
  rw [if_neg first]
  by_cases second : n = 1
  · rw [if_pos second, if_pos (by omega), States.write_other _ apart]
  have later : ¬n ≤ 1 := by omega
  rw [if_neg second, if_neg later]
  by_cases last : n = lastAccess constants c
  · rw [if_pos last, States.write_other _ apart]
    exact States.write_same _ _ _ 0
  · rw [if_neg last]
    exact States.write_same _ _ _ 0

theorem left_other (inside : n ≤ lastAccess constants c) {address : Address} {selector : BitVec 16}
    (apart0 : (address, selector) ≠ (portAddress c.portId0, c.cportId0))
    (apart1 : (address, selector) ≠ (portAddress c.portId1, c.cportId1)) :
    states.apply ((connectTrace constants c).take n) address selector = states address selector := by
  rw [apply_connectTrace constants c states inside]
  split
  · rfl
  split
  · exact States.write_other _ apart0 0
  split
  · rw [States.write_other _ apart0, States.write_other _ apart1, States.write_other _ apart0]
  · rw [States.write_other _ apart1, States.write_other _ apart0]

end Left

/-- A failure at an access is undone exactly when the access, the CPorts and the connection states before allow it. -/
theorem undone_iff {constants : CportConstants} {initial final : Values} {n : ℕ} (inside : n ≤ lastAccess constants c)
    (disconnected : final.states =
      (initial.states.apply ((connectTrace constants c).take n)).disconnected c) :
    Undone c initial final ↔ Undoable constants c initial n := by
  have three := three_le_lastAccess constants c
  have states (address : Address) (selector : BitVec 16) : final address .connectionState selector =
      (initial.states.apply ((connectTrace constants c).take n)).disconnected c address selector :=
    congrFun (congrFun disconnected address) selector
  constructor
  · intro undone
    have harmless {portId : BitVec 8} {cportId : BitVec 16}
        (written : final (.peer portId) .connectionState (byteSelector cportId) = 0) :
        Harmless c initial portId cportId := by
      by_cases side0 : (Address.peer portId, byteSelector cportId) = (portAddress c.portId0, c.cportId0)
      · exact .inl side0
      by_cases side1 : (Address.peer portId, byteSelector cportId) = (portAddress c.portId1, c.cportId1)
      · exact .inr (.inl side1)
      · exact .inr (.inr ((undone.others _ _ side0 side1).symm.trans written))
    refine ⟨harmless ((states _ _).trans (States.disconnected_first _)),
      harmless ((states _ _).trans (States.disconnected_second _)), ?_, fun distinct => ?_⟩
    · by_cases reached : Reached c.portId0 c.cportId0
      · exact .inl reached
      have left := undone.side0
      unfold UniproConnection.side0 at left
      rw [states, disconnected_unreached reached, left_side0 inside] at left
      refine .inr ⟨fun first => ?_, fun last => ?_⟩
      · rwa [if_pos first] at left
      · rw [if_neg (by omega), if_pos last] at left
        exact absurd left (by decide)
    · by_cases reached : Reached c.portId1 c.cportId1
      · exact .inl reached
      have left := undone.side1
      unfold UniproConnection.side1 at left
      rw [states, disconnected_unreached reached, left_side1 inside (sides_apart distinct)] at left
      refine .inr fun early => ?_
      rwa [if_pos early] at left
  · intro undoable
    have side0 : c.side0 final .connectionState = 0 := by
      refine (states _ _).trans ?_
      by_cases reached : Reached c.portId0 c.cportId0
      · exact disconnected_reached (States.disconnected_first _) reached
      obtain ⟨first, last⟩ := undoable.side0.resolve_left reached
      rw [disconnected_unreached reached, left_side0 inside, if_neg last]
      split
      · exact first ‹_›
      · rfl
    refine ⟨side0, ?_, fun address selector apart0 apart1 => ?_⟩
    · by_cases distinct : c.Distinct
      · refine (states _ _).trans ?_
        by_cases reached : Reached c.portId1 c.cportId1
        · exact disconnected_reached (States.disconnected_second _) reached
        have early := (undoable.side1 distinct).resolve_left reached
        rw [disconnected_unreached reached, left_side1 inside (sides_apart distinct)]
        split
        · exact early ‹_›
        · rfl
      · obtain ⟨port, cport⟩ := Prod.mk.inj (not_not.mp distinct)
        unfold UniproConnection.side0 at side0
        unfold UniproConnection.side1
        rwa [← port, ← cport]
    · have cleared {portId : BitVec 8} {cportId : BitVec 16} (harmless : Harmless c initial portId cportId)
          (same : (address, selector) = (.peer portId, byteSelector cportId)) :
          initial address .connectionState selector = 0 := by
        obtain ⟨place, number⟩ := Prod.mk.inj same
        rcases harmless with first | second | none
        · exact absurd (same.trans first) apart0
        · exact absurd (same.trans second) apart1
        · rwa [place, number]
      rw [states]
      by_cases hit0 : (address, selector) = (.peer c.portId0, byteSelector c.cportId0)
      · rw [cleared undoable.write0 hit0, (Prod.mk.inj hit0).1, (Prod.mk.inj hit0).2]
        exact States.disconnected_first _
      by_cases hit1 : (address, selector) = (.peer c.portId1, byteSelector c.cportId1)
      · rw [cleared undoable.write1 hit1, (Prod.mk.inj hit1).1, (Prod.mk.inj hit1).2]
        exact States.disconnected_second _
      rw [States.disconnected_other _ hit0 hit1, left_other inside apart0 apart1]
      rfl

end Undo

section Create
variable {env : Environment} {constants : SetUpConstants} {c : UniproConnection} {s linked : FaultyStore}

/-- A creation whose links fail is disconnected again. -/
theorem created_of_error {rc : Int}
    (ran : runFrom (configureLinks (faultyLinkOps env.fault env.selindexNull env.indication) constants c) s =
      (.error rc, linked)) (passed : Passed env.fault linked) :
    ∃ next, created env constants c s = (.error rc, next) ∧ next.states = linked.states.disconnected c := by
  obtain ⟨next, ended, states⟩ := orDisconnect_error ran passed
  refine ⟨next, ?_, states⟩
  unfold created switchConnectionCreate
  rw [runFrom_bind, ended]

theorem created_of_ok
    (ran : runFrom (configureLinks (faultyLinkOps env.fault env.selindexNull env.indication) constants c) s =
      (.ok (), linked)) :
    created env constants c s =
      runFrom (orDisconnect (faultyOps env.fault) c (switchCportConnect (faultyOps env.fault) constants.cports c))
        linked := by
  unfold created switchConnectionCreate
  rw [runFrom_bind, orDisconnect_ok ran]

end Create

/-- When an access of the set-up fails, or the links cannot be configured, `switch_connection_create` leaves both CPorts
disconnected and the other ones as they were, exactly when its disconnection is harmless, and reaches each side that is
connected by then. -/
theorem connection_create_undone (env : Environment) (constants : SetUpConstants) (c : UniproConnection)
    (initial : Values) (links : BitVec 8 → LinkAttribute → BitVec 32)
    (setUp : ∀ f ∈ env.fault, ∀ n, f.place = .cport n → ¬LinksFail env constants c (.boot initial links)) :
    (∀ rc final, created env constants c (.boot initial links) = (.error rc, final) →
        Undone c initial final.store.values) ↔
      ∀ n, FailsAt env constants c (.boot initial links) n → Undoable constants.cports c initial n := by
  -- The property is about one end only.
  have ended {rc : Int} {final : FaultyStore} (same : created env constants c (.boot initial links) = (.error rc, final)) :
      (∀ rc final, created env constants c (.boot initial links) = (.error rc, final) →
        Undone c initial final.store.values) ↔ Undone c initial final.store.values := by
    constructor
    · exact fun all => all rc final same
    · intro undone rc' final' same'
      rw [← (Prod.mk.inj (same.symm.trans same')).2]
      exact undone
  have untouched : Untouched (.boot initial)
      (runFrom (configureLinks (faultyLinkOps env.fault env.selindexNull env.indication) constants c)
        (.boot initial links)).2 := keeps_configureLinks constants c _ ⟨rfl, rfl⟩
  cases configured : runFrom (configureLinks (faultyLinkOps env.fault env.selindexNull env.indication) constants c)
      (.boot initial links) with
  | mk result linked =>
  rw [configured] at untouched
  obtain ⟨store, accesses⟩ := untouched
  have states : linked.states = initial.states := congrArg (fun store => store.values.states) store
  cases result with
  | error rc =>
    have failed : LinksFail env constants c (.boot initial links) := ⟨rc, congrArg Prod.fst configured⟩
    have passed : Passed env.fault linked := fun f there n place => absurd failed (setUp f there n place)
    obtain ⟨final, same, disconnected⟩ := created_of_error configured passed
    have undone : Undone c initial final.store.values ↔ Undoable constants.cports c initial 0 :=
      undone_iff (Nat.zero_le _) (disconnected.trans (congrArg (States.disconnected · c) states))
    rw [ended same, undone]
    constructor
    · rintro undoable n (⟨-, rfl⟩ | ⟨works, -⟩)
      · exact undoable
      · exact absurd failed works
    · exact fun all => all 0 (.inl ⟨failed, rfl⟩)
  | ok =>
    have works : ¬LinksFail env constants c (.boot initial links) := by
      rintro ⟨rc, failed⟩
      rw [configured] at failed
      cases failed
    have traced : Traced env.fault (switchCportConnect (faultyOps env.fault) constants.cports c)
      (connectTrace constants.cports c) := traced_connect constants.cports c
    by_cases fails : ∃ f ∈ env.fault, ∃ n ≤ lastAccess constants.cports c, f.place = .cport n
    · obtain ⟨f, there, n, inside, place⟩ := fails
      obtain ⟨middle, ran, number, left⟩ := traced.fails linked f there n
        (by rw [connectTrace_length]; exact Nat.lt_succ_of_le inside) (by rw [accesses, Nat.zero_add]; exact place)
      have passed : Passed env.fault middle := by
        intro g here m same
        obtain rfl : f = g := Option.some.inj (there.symm.trans here)
        rw [number, accesses, ← Place.cport.inj (place.symm.trans same)]
        omega
      obtain ⟨final, same, disconnected⟩ := orDisconnect_error ran passed
      rw [left, states] at disconnected
      rw [ended ((created_of_ok configured).trans same), undone_iff inside disconnected]
      constructor
      · rintro undoable m (⟨failed, -⟩ | ⟨-, -, g, here, same⟩)
        · exact absurd failed works
        · obtain rfl : f = g := Option.some.inj (there.symm.trans here)
          rwa [← Place.cport.inj (place.symm.trans same)]
      · exact fun all => all n (.inr ⟨works, inside, f, there, place⟩)
    · obtain ⟨value, final, ran, -, -⟩ := traced.succeeds linked fun f there k less same => by
        rw [connectTrace_length] at less
        rw [accesses, Nat.zero_add] at same
        exact fails ⟨f, there, k, Nat.le_of_lt_succ less, same⟩
      refine iff_of_true (fun rc last same => ?_) fun n failing => ?_
      · rw [created_of_ok configured, orDisconnect_ok ran] at same
        cases same
      · rcases failing with ⟨failed, -⟩ | ⟨-, inside, f, there, place⟩
        · exact absurd failed works
        · exact absurd ⟨f, there, n, inside, place⟩ fails

/-- The links change their power mode at once, and this access to a CPort fails. -/
def accessFails (number : ℕ) : Environment := ⟨some ⟨.cport number, -5, by decide⟩, 0, fun _ => powerModeIndLocal⟩

/-- Two connected CPorts with small ids are disconnected again when their set-up fails with its third access. -/
theorem connection_create_undone_devices :
    ¬LinksFail (accessFails 2) ⟨⟨1, 2, 1⟩, 1, true⟩ ⟨1, 2, 3, 4, 5, 6, 0, 7⟩ (.boot (fun _ _ _ => 1) fun _ _ => 0) ∧
      ∀ rc final, created (accessFails 2) ⟨⟨1, 2, 1⟩, 1, true⟩ ⟨1, 2, 3, 4, 5, 6, 0, 7⟩
          (.boot (fun _ _ _ => 1) fun _ _ => 0) = (.error rc, final) →
        Undone ⟨1, 2, 3, 4, 5, 6, 0, 7⟩ (fun _ _ _ => 1) final.store.values := by
  have configured : (runFrom (configureLinks (faultyLinkOps (accessFails 2).fault 0 fun _ => powerModeIndLocal)
      ⟨⟨1, 2, 1⟩, 1, true⟩ ⟨1, 2, 3, 4, 5, 6, 0, 7⟩) (.boot (fun _ _ _ => 1) fun _ _ => 0)).1.toBool = true := by
    decide +kernel
  have works : ¬LinksFail (accessFails 2) ⟨⟨1, 2, 1⟩, 1, true⟩ ⟨1, 2, 3, 4, 5, 6, 0, 7⟩
      (.boot (fun _ _ _ => 1) fun _ _ => 0) := by
    rintro ⟨rc, failed⟩
    have no : true = false := configured.symm.trans (congrArg Except.toBool failed)
    cases no
  refine ⟨works, (connection_create_undone (accessFails 2) ⟨⟨1, 2, 1⟩, 1, true⟩ ⟨1, 2, 3, 4, 5, 6, 0, 7⟩
    (fun _ _ _ => 1) (fun _ _ => 0) fun _ _ _ _ => works).mpr fun n _ =>
      ⟨.inl (reached_written ?_), .inr (.inl (reached_written ?_)), .inl ?_, fun _ => .inl ?_⟩⟩
  all_goals
    unfold Reached
    decide

/-- The failure of the last access leaves CPort 257 connected, as CPort 1 is disconnected instead. -/
theorem connection_create_undone_large_id :
    ¬∀ rc final, created (accessFails 27) ⟨⟨1, 2, 1⟩, 1, true⟩ ⟨1, 2, 257, 4, 5, 6, 0, 7⟩
        (.boot (fun _ _ _ => 0) fun _ _ => 0) = (.error rc, final) →
      Undone ⟨1, 2, 257, 4, 5, 6, 0, 7⟩ (fun _ _ _ => 0) final.store.values := by
  have failed : (created (accessFails 27) ⟨⟨1, 2, 1⟩, 1, true⟩ ⟨1, 2, 257, 4, 5, 6, 0, 7⟩
      (.boot (fun _ _ _ => 0) fun _ _ => 0)).1.toBool = false := by
    decide +kernel
  have state : (created (accessFails 27) ⟨⟨1, 2, 1⟩, 1, true⟩ ⟨1, 2, 257, 4, 5, 6, 0, 7⟩
      (.boot (fun _ _ _ => 0) fun _ _ => 0)).2.store.values (.peer 1) .connectionState 257 = 1 := by
    decide +kernel
  intro undone
  cases ended : created (accessFails 27) ⟨⟨1, 2, 1⟩, 1, true⟩ ⟨1, 2, 257, 4, 5, 6, 0, 7⟩
      (.boot (fun _ _ _ => 0) fun _ _ => 0) with
  | mk result final =>
  rw [ended] at failed state
  cases result with
  | ok => cases failed
  | error rc =>
    have cleared : final.store.values (.peer 1) .connectionState 257 = 0 := (undone rc final ended).side0
    exact absurd (state.symm.trans cleared) (by decide)

end Phabos.Switch
