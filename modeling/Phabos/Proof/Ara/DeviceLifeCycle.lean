import Phabos.Construction.Ara.Device
import Phabos.Library.Run

namespace Phabos.Ara
open Library List Option

/-- The callbacks of a device from its probe on, after so many openings -/
def sinceProbe (openings : ℕ) : List Callback := .probe :: (List.replicate openings [Callback.opens, .closes]).flatten

/-- The callbacks of a device from its probe to its removal -/
def lifeCycle (openings : ℕ) : List Callback := sinceProbe openings ++ [.remove]

/-- The callbacks of a device that completed, and those that its driver does not have when their turn came -/
def Kernel.callbacks (s : Kernel) (dev : Device) : List Callback :=
  (s.completed.filter (·.dev = dev)).map Completed.callback

/-- The callbacks of a device that completed -/
def Kernel.called (s : Kernel) (dev : Device) : List Callback :=
  (s.completed.filter fun completed => completed.dev = dev ∧ completed.called = true).map Completed.callback

def Kernel.InCallback (s : Kernel) (id : ℕ) (dev : Device) : Prop :=
  ∃ call before, s.calls id = some call ∧ call.place = .callback dev before

/-- The life cycle of the devices -/
structure LifeCycle (b : Board) (s : Kernel) : Prop where
  callbacks : ∀ dev, ∃ openings : List ℕ, s.callbacks dev <+: openings.flatMap lifeCycle
  called : (∀ driver, ∀ ops ∈ (b.drivers driver).ops, ∀ callback, ops.has callback = true) →
    ∀ dev, s.called dev = s.callbacks dev
  alone : ∀ one two dev, s.InCallback one dev → s.InCallback two dev → one = two
  opener : ∀ dev, (s.callbacks dev).count .opens ≤ (s.callbacks dev).count .closes + 1
  driver : ∀ dev, (s.devices dev).state ≠ .removed → (s.devices dev).driver ≠ none
  bound : ∀ event s', step b s event = some s' → ∀ dev, (s.devices dev).state ∈ [.opening, .opened, .closing] →
    (s'.devices dev).driver = (s.devices dev).driver
  failed : ∀ failed ∈ s.failed, failed.1 = failed.2
  returns : ∀ returned ∈ s.returns, returned.depth = returned.after
  goes : s.owner ≠ none → (step b s .turn).isSome

/-- Where the callbacks of a device are in its life cycle -/
def InCycle : DeviceState → List Callback → Prop
  | .removed, callbacks | .probing, callbacks => ∃ cycles : List ℕ, callbacks = cycles.flatMap lifeCycle
  | .probed, callbacks | .opening, callbacks | .removing, callbacks => ∃ (cycles : List ℕ) (openings : ℕ),
      callbacks = cycles.flatMap lifeCycle ++ sinceProbe openings
  | .opened, callbacks | .closing, callbacks => ∃ (cycles : List ℕ) (openings : ℕ),
      callbacks = cycles.flatMap lifeCycle ++ (sinceProbe openings ++ [.opens])

section Cycle
variable {state : DeviceState} {callbacks : List Callback}

theorem sinceProbe_succ (openings : ℕ) : sinceProbe (openings + 1) = sinceProbe openings ++ [.opens] ++ [.closes] := by
  unfold sinceProbe
  rw [replicate_succ', flatten_append, flatten_singleton, append_assoc]
  rfl

theorem InCycle.probe (cycle : InCycle .removed callbacks) : InCycle .probed (callbacks ++ [.probe]) := by
  obtain ⟨cycles, rfl⟩ := cycle
  exact ⟨cycles, 0, rfl⟩

theorem InCycle.opens (cycle : InCycle .probed callbacks) : InCycle .opened (callbacks ++ [.opens]) := by
  obtain ⟨cycles, openings, rfl⟩ := cycle
  exact ⟨cycles, openings, append_assoc _ _ _⟩

theorem InCycle.closes (cycle : InCycle .opened callbacks) : InCycle .probed (callbacks ++ [.closes]) := by
  obtain ⟨cycles, openings, rfl⟩ := cycle
  refine ⟨cycles, openings + 1, ?_⟩
  rw [sinceProbe_succ, append_assoc]

theorem InCycle.remove (cycle : InCycle .probed callbacks) : InCycle .removed (callbacks ++ [.remove]) := by
  obtain ⟨cycles, openings, rfl⟩ := cycle
  refine ⟨cycles ++ [openings], ?_⟩
  rw [flatMap_append, flatMap_singleton, append_assoc]
  rfl

theorem InCycle.begins (cycle : InCycle state callbacks) :
    ∃ openings : List ℕ, callbacks <+: openings.flatMap lifeCycle := by
  have removed (callbacks : List Callback) (cycle : InCycle .removed callbacks) :
      ∃ openings : List ℕ, callbacks <+: openings.flatMap lifeCycle := by
    obtain ⟨cycles, rfl⟩ := cycle
    exact ⟨cycles, prefix_refl _⟩
  have probed (callbacks : List Callback) (cycle : InCycle .probed callbacks) :
      ∃ openings : List ℕ, callbacks <+: openings.flatMap lifeCycle := by
    obtain ⟨openings, begins⟩ := removed _ cycle.remove
    exact ⟨openings, (prefix_append callbacks [.remove]).trans begins⟩
  have opened (callbacks : List Callback) (cycle : InCycle .opened callbacks) :
      ∃ openings : List ℕ, callbacks <+: openings.flatMap lifeCycle := by
    obtain ⟨openings, begins⟩ := probed _ cycle.closes
    exact ⟨openings, (prefix_append callbacks [.closes]).trans begins⟩
  cases state with
  | removed | probing => exact removed callbacks cycle
  | probed | opening | removing => exact probed callbacks cycle
  | opened | closing => exact opened callbacks cycle

theorem count_sinceProbe (openings : ℕ) :
    (sinceProbe openings).count .opens = openings ∧ (sinceProbe openings).count .closes = openings := by
  induction openings with
  | zero => exact ⟨rfl, rfl⟩
  | succ openings ih =>
    rw [sinceProbe_succ]
    simp [count_append, ih]

theorem count_cycles (cycles : List ℕ) :
    (cycles.flatMap lifeCycle).count .opens = (cycles.flatMap lifeCycle).count .closes := by
  induction cycles with
  | nil => rfl
  | cons openings rest ih =>
    rw [flatMap_cons, count_append, count_append, ih]
    simp [lifeCycle, count_append, count_sinceProbe]

theorem InCycle.count_le (cycle : InCycle state callbacks) : callbacks.count .opens ≤ callbacks.count .closes + 1 := by
  have idle (cycles : List ℕ) (rest : List Callback) (few : rest.count .opens ≤ rest.count .closes + 1) :
      (cycles.flatMap lifeCycle ++ rest).count .opens ≤ (cycles.flatMap lifeCycle ++ rest).count .closes + 1 := by
    rw [count_append, count_append, count_cycles]
    omega
  cases state with
  | removed | probing =>
    obtain ⟨cycles, rfl⟩ := cycle
    simpa using idle cycles [] (by decide)
  | probed | opening | removing =>
    obtain ⟨cycles, openings, rfl⟩ := cycle
    refine idle cycles _ ?_
    rw [(count_sinceProbe openings).1, (count_sinceProbe openings).2]
    omega
  | opened | closing =>
    obtain ⟨cycles, openings, rfl⟩ := cycle
    refine idle cycles _ ?_
    rw [count_append, count_append, (count_sinceProbe openings).1, (count_sinceProbe openings).2]
    exact Nat.le_refl (openings + 1)

end Cycle

/-- The state of a device during a callback -/
def Function.during : Function → DeviceState
  | .deviceOpen _ _ => .opening
  | .deviceClose _ => .closing
  | .deviceRegisterDriver _ => .probing
  | .deviceUnregisterDriver _ => .removing

/-- What a function restores when its callback fails is what was there. -/
def Function.Restores (before device : DeviceAra) : Function → Prop
  | .deviceOpen _ _ => { device with state := .probed } = before
  | .deviceRegisterDriver _ => ⟨.removed, none⟩ = before
  | .deviceClose _ | .deviceUnregisterDriver _ => True

/-- A device without a driver is removed, its driver has a table of callbacks, and its callbacks follow the cycle. -/
structure Settled (b : Board) (device : DeviceAra) (callbacks : List Callback) : Prop where
  driver : device.state = .removed ↔ device.driver = none
  ops : ∀ driver ∈ device.driver, (b.drivers driver).ops ≠ none
  cycle : InCycle device.state callbacks

/-- All callbacks that drivers have were called. -/
def Board.Full (b : Board) : Prop := ∀ driver, ∀ ops ∈ (b.drivers driver).ops, ∀ callback, ops.has callback = true

/-- What holds between the steps, where one call may be in the middle of one -/
structure Invariant (b : Board) (s : Kernel) (except : Option ℕ) : Prop where
  devices : ∀ dev, Settled b (s.devices dev) (s.callbacks dev)
  during : ∀ id, some id ≠ except → ∀ call ∈ s.calls id, ∀ dev before, call.place = .callback dev before →
    (s.devices dev).state = call.function.during ∧ call.function.Restores before (s.devices dev)
  alone : ∀ one two dev, some one ≠ except → some two ≠ except → s.InCallback one dev → s.InCallback two dev → one = two
  loops : ∀ id, some id ≠ except → ∀ call ∈ s.calls id, ∀ iter, call.place = .loop iter →
    s.owner = some id ∧ s.irqGlobalState = call.depth + 1
  accepted : ∀ id, ∀ call ∈ s.calls id, call.function.refused b = none
  tables : ∀ table ∈ s.tables, table ≠ []
  called : b.Full → ∀ completed ∈ s.completed, completed.called = true
  failed : ∀ failed ∈ s.failed, failed.1 = failed.2
  returns : ∀ returned ∈ s.returns, returned.depth = returned.after

/-- What holds between the steps -/
structure Sound (b : Board) (s : Kernel) : Prop where
  invariant : Invariant b s none
  owner : ∀ id, s.owner = some id → ∃ call ∈ s.calls id, ∃ iter, call.place = .loop iter

/-- Devices that were open, or were being opened or closed, have the drivers that they had. -/
def Bound (old new : Device → DeviceAra) : Prop :=
  ∀ dev, (old dev).state ∈ [.opening, .opened, .closing] → (new dev).driver = (old dev).driver

/-- What holds after a step, where the devices were as they are in `old` -/
structure After (b : Board) (old : Device → DeviceAra) (s : Kernel) : Prop where
  sound : Sound b s
  bound : Bound old s.devices

/-- What holds while a call has interrupts disabled -/
structure Within (b : Board) (old : Device → DeviceAra) (s : Kernel) (id : ℕ) (call : Call) : Prop where
  invariant : Invariant b s (some id)
  bound : Bound old s.devices
  owner : s.owner = some id
  depth : s.irqGlobalState = call.depth + 1
  accepted : call.function.refused b = none

/-- No other call is in a callback of a device. -/
def Kernel.Free (s : Kernel) (id : ℕ) (dev : Device) : Prop := ∀ other, other ≠ id → ¬s.InCallback other dev

section Section
variable {b : Board} {old : Device → DeviceAra} {s s' : Kernel} {id : ℕ} {call : Call} {dev : Device}

theorem Sound.within (sound : Sound b s) (here : s.calls id = some call) {iter : Option Device}
    (place : call.place = .loop iter) : Within b s.devices s id call where
  bound _ _ := rfl
  invariant := { sound.invariant with
    during := fun other _ => sound.invariant.during other (by simp)
    alone := fun one two dev _ _ => sound.invariant.alone one two dev (by simp) (by simp)
    loops := fun other _ => sound.invariant.loops other (by simp) }
  owner := (sound.invariant.loops id (by simp) call here iter place).1
  depth := (sound.invariant.loops id (by simp) call here iter place).2
  accepted := sound.invariant.accepted id call here

theorem Sound.irqDisable (sound : Sound b s) (idle : s.owner = none) (id : ℕ) :
    Invariant b (s.irqDisable id) (some id) :=
  { sound.invariant with
    during := fun other _ => sound.invariant.during other (by simp)
    alone := fun one two dev _ _ => sound.invariant.alone one two dev (by simp) (by simp)
    loops := fun other _ call known iter place => by
      have owner := (sound.invariant.loops other (by simp) call known iter place).1
      rw [idle] at owner
      cases owner }

theorem Sound.callbackReturned (sound : Sound b s) (here : s.calls id = some call) (idle : s.owner = none)
    (depth : s.irqGlobalState = call.depth) : Within b s.devices (s.irqDisable id) id call where
  invariant := sound.irqDisable idle id
  bound _ _ := rfl
  owner := rfl
  depth := congrArg (· + 1) depth
  accepted := sound.invariant.accepted id call here

section
variable (within : Within b old s id call)
include within

theorem Within.place (slot : Option Call) (owner : Option ℕ) (depth : ℕ)
    (accepted : ∀ call ∈ slot, call.function.refused b = none)
    (callback : ∀ call ∈ slot, ∀ dev before, call.place = .callback dev before → (s.devices dev).state = call.function.during ∧ call.function.Restores before (s.devices dev) ∧ s.Free id dev)
    (loop : ∀ call ∈ slot, ∀ iter, call.place = .loop iter → owner = some id ∧ depth = call.depth + 1) :
    Invariant b { s with calls := Function.update s.calls id slot, owner, irqGlobalState := depth } none := by
  have others (other : ℕ) (differs : other ≠ id) : some other ≠ some id := fun same => differs (some.inj same)
  have mine : Function.update s.calls id slot id = slot := Function.update_self _ _ _
  have outside {other : ℕ} {dev : Device} (differs : other ≠ id)
      (inside : Kernel.InCallback
        { s with calls := Function.update s.calls id slot, owner, irqGlobalState := depth } other dev) :
      s.InCallback other dev := by
    obtain ⟨call, before, known, place⟩ := inside
    exact ⟨call, before, (Function.update_of_ne differs _ _).symm.trans known, place⟩
  have own {dev : Device} (inside : Kernel.InCallback
      { s with calls := Function.update s.calls id slot, owner, irqGlobalState := depth } id dev) : s.Free id dev := by
    obtain ⟨call, before, known, place⟩ := inside
    exact (callback call (mine.symm.trans known) dev before place).2.2
  exact { within.invariant with
    during := fun other _ call known dev before place => by
      by_cases self : other = id
      · subst self
        have facts := callback call (mine.symm.trans known) dev before place
        exact ⟨facts.1, facts.2.1⟩
      · exact within.invariant.during other (others other self) call
          ((Function.update_of_ne self _ _).symm.trans known) dev before place
    alone := fun one two dev _ _ first second => by
      by_cases self : one = id
      · by_cases same : two = id
        · rw [self, same]
        · exact absurd (outside same second) (own (self ▸ first) two same)
      · by_cases same : two = id
        · exact absurd (outside self first) (own (same ▸ second) one self)
        · exact within.invariant.alone one two dev (others one self) (others two same) (outside self first)
            (outside same second)
    loops := fun other _ call known iter place => by
      by_cases self : other = id
      · subst self
        exact loop call (mine.symm.trans known) iter place
      · have owned := (within.invariant.loops other (others other self) call
          ((Function.update_of_ne self _ _).symm.trans known) iter place).1
        exact absurd (some.inj (owned.symm.trans within.owner)) self
    accepted := fun other call known => by
      by_cases self : other = id
      · subst self
        exact accepted call (mine.symm.trans known)
      · exact within.invariant.accepted other call ((Function.update_of_ne self _ _).symm.trans known) }

theorem Within.leave (result : Result) : After b old (s.leave id call result) where
  bound := within.bound
  sound.invariant := { within.place none none (s.irqGlobalState - 1) nofun nofun nofun with
    returns := fun returned among => by
      cases mem_append.mp among with
      | inl before => exact within.invariant.returns returned before
      | inr new =>
        obtain rfl := mem_singleton.mp new
        exact (congrArg (· - 1) within.depth).symm }
  sound.owner := nofun

theorem Within.loop (iter : Option Device) :
    After b old (s.atPlace id call (.loop iter)) where
  bound := within.bound
  sound.invariant := within.place (some { call with place := .loop iter }) s.owner s.irqGlobalState
    (fun _ known => by obtain rfl := some.inj known; exact within.accepted)
    (fun _ known _ _ place => by obtain rfl := some.inj known; cases place)
    (fun _ known _ _ => by obtain rfl := some.inj known; exact ⟨within.owner, within.depth⟩)
  sound.owner other owner := by
    obtain rfl := some.inj (within.owner.symm.trans owner)
    exact ⟨_, Function.update_self _ _ _, iter, rfl⟩

theorem Within.callback (free : s.Free id dev) {before : DeviceAra}
    (during : (s.devices dev).state = call.function.during) (restores : call.function.Restores before (s.devices dev)) :
    After b old (s.irqEnable.atPlace id call (.callback dev before)) where
  bound := within.bound
  sound.invariant := within.place (some { call with place := .callback dev before }) none (s.irqGlobalState - 1)
    (fun _ known => by obtain rfl := some.inj known; exact within.accepted)
    (fun _ known _ _ place => by
      obtain rfl := some.inj known
      obtain ⟨rfl, rfl⟩ := Place.callback.inj place
      exact ⟨during, restores, free⟩)
    (fun _ known _ place => by obtain rfl := some.inj known; cases place)
  sound.owner := nofun

end

variable {device : DeviceAra}

theorem Settled.setDevice (settled : ∀ dev, Settled b (s.devices dev) (s.callbacks dev))
    {callbacks : Device → List Callback} (others : ∀ other, other ≠ dev → callbacks other = s.callbacks other)
    (own : Settled b device (callbacks dev)) (other : Device) :
    Settled b (Function.update s.devices dev device other) (callbacks other) := by
  by_cases same : other = dev
  · rw [same, Function.update_self]
    exact own
  · rw [Function.update_of_ne same, others other same]
    exact settled other

theorem setDevice_self (s : Kernel) (dev : Device) (device : DeviceAra) : (s.setDevice dev device).devices dev = device :=
  Function.update_self _ _ _

theorem Within.during_setDevice (within : Within b old s id call) (free : s.Free id dev) (device : DeviceAra) :
    ∀ other, some other ≠ some id → ∀ call ∈ s.calls other, ∀ dev' before, call.place = .callback dev' before →
      (Function.update s.devices dev device dev').state = call.function.during ∧
        call.function.Restores before (Function.update s.devices dev device dev') := by
  intro other differs call known dev' before place
  have apart : dev' ≠ dev := by
    rintro rfl
    exact free other (fun same => differs (congrArg some same)) ⟨call, before, known, place⟩
  rw [Function.update_of_ne apart]
  exact within.invariant.during other differs call known dev' before place

theorem Bound.setDevice {new : Device → DeviceAra} (bound : Bound old new)
    (keeps : (old dev).state ∈ [.opening, .opened, .closing] → device.driver = (old dev).driver) :
    Bound old (Function.update new dev device) := by
  intro other busy
  by_cases same : other = dev
  · rw [same, Function.update_self]
    exact keeps (same ▸ busy)
  · rw [Function.update_of_ne same]
    exact bound other busy

theorem Within.setDevice (within : Within b old s id call) (free : s.Free id dev)
    (settled : Settled b device (s.callbacks dev))
    (keeps : (old dev).state ∈ [.opening, .opened, .closing] → device.driver = (old dev).driver) : Within b old (s.setDevice dev device) id call where
  bound := within.bound.setDevice keeps
  invariant := { within.invariant with
    devices := Settled.setDevice within.invariant.devices (fun _ _ => rfl) settled
    during := within.during_setDevice free device }
  owner := within.owner
  depth := within.depth
  accepted := within.accepted

theorem callbacks_complete (s : Kernel) (dev : Device) (callback : Callback) (called : Bool) (other : Device) :
    (s.complete dev callback called).callbacks other =
      if other = dev then s.callbacks other ++ [callback] else s.callbacks other := by
  unfold Kernel.complete Kernel.callbacks
  rw [filter_append, map_append]
  by_cases same : other = dev
  · subst same
    rw [if_pos rfl, filter_cons_of_pos (by simp), filter_nil]
    rfl
  · rw [if_neg same, filter_cons_of_neg (by simpa using Ne.symm same), filter_nil]
    exact append_nil _

theorem Within.complete (within : Within b old s id call) (free : s.Free id dev) {callback : Callback} {called : Bool}
    (full : b.Full → called = true) (settled : Settled b device (s.callbacks dev ++ [callback]))
    (keeps : (old dev).state ∈ [.opening, .opened, .closing] → device.driver = (old dev).driver) :
    Within b old ((s.complete dev callback called).setDevice dev device) id call where
  bound := within.bound.setDevice keeps
  invariant := { within.invariant with
    devices := by
      refine Settled.setDevice within.invariant.devices (fun other differs => ?_) ?_
      · exact (callbacks_complete s dev callback called other).trans (if_neg differs)
      · have after := (callbacks_complete s dev callback called dev).trans (if_pos rfl)
        exact after ▸ settled
    during := within.during_setDevice free device
    called := fun all completed among => by
      cases mem_append.mp among with
      | inl before => exact within.invariant.called all completed before
      | inr new =>
        obtain rfl := mem_singleton.mp new
        exact full all }
  owner := within.owner
  depth := within.depth
  accepted := within.accepted

theorem Within.fail (within : Within b old s id call) {before after : DeviceAra} (same : after = before) :
    Within b old { s with failed := s.failed ++ [(before, after)] } id call where
  bound := within.bound
  invariant := { within.invariant with
    failed := fun failed among => by
      cases mem_append.mp among with
      | inl known => exact within.invariant.failed failed known
      | inr new =>
        obtain rfl := mem_singleton.mp new
        exact same.symm }
  owner := within.owner
  depth := within.depth
  accepted := within.accepted

theorem Function.during_transient (function : Function) :
    ¬(function.during = .removed ∨ function.during = .probed ∨ function.during = .opened) := by
  cases function <;> simp [Function.during]

theorem Within.free (within : Within b old s id call)
    (stable : (s.devices dev).state = .removed ∨ (s.devices dev).state = .probed ∨ (s.devices dev).state = .opened) :
    s.Free id dev := by
  rintro other differs ⟨call, before, known, place⟩
  have during := (within.invariant.during other (fun same => differs (some.inj same)) call known dev before place).1
  rw [during] at stable
  exact call.function.during_transient stable

/-- A call that sets the state of a stable device and invokes the callback of its driver goes on as the function says. -/
theorem Within.invoke (within : Within b s.devices s id call) {started done : DeviceAra}
    (stable : (s.devices dev).state = .removed ∨ (s.devices dev).state = .probed ∨ (s.devices dev).state = .opened)
    (during : started.state = call.function.during) {before : DeviceAra}
    (restores : call.function.Restores before started) {driver : ℕ} {ops : DeviceDriverOps}
    (table : (b.drivers driver).ops = some ops) {callback : Callback} {next : Kernel → Kernel}
    (starts : Settled b started (s.callbacks dev)) (ends : Settled b done (s.callbacks dev ++ [callback]))
    (keeps : (s.devices dev).state ∈ [.opening, .opened, .closing] →
      started.driver = (s.devices dev).driver ∧ done.driver = (s.devices dev).driver)
    (goOn : Within b s.devices (((s.setDevice dev started).complete dev callback false).setDevice dev done) id call →
      After b s.devices (next ((s.setDevice dev started).complete dev callback false))) :
    After b s.devices ((s.setDevice dev started).invoke id call dev callback ops before next) := by
  have free : s.Free id dev := within.free stable
  have within := within.setDevice free starts fun busy => (keeps busy).1
  unfold Kernel.invoke
  cases has : ops.has callback with
  | true =>
    refine within.callback free ?_ ?_
    · rw [setDevice_self, during]
    · rwa [setDevice_self]
  | false =>
    refine goOn (within.complete free (fun full => ?_) ends fun busy => (keeps busy).2)
    have all := full driver ops table callback
    rw [has] at all
    cases all

end Section

section Settled
variable {b : Board} {device : DeviceAra} {callbacks after : List Callback}

theorem Settled.move (settled : Settled b device callbacks) (present : device.state ≠ .removed) {state : DeviceState}
    (stays : state ≠ .removed) (cycle : InCycle state after) : Settled b { device with state } after where
  driver := ⟨fun gone => absurd gone stays, fun none => absurd (settled.driver.mpr none) present⟩
  ops := settled.ops
  cycle := cycle

theorem Settled.bind {driver : ℕ} (ops : (b.drivers driver).ops ≠ none) {state : DeviceState}
    (stays : state ≠ .removed) (cycle : InCycle state callbacks) : Settled b ⟨state, some driver⟩ callbacks where
  driver := ⟨fun gone => absurd gone stays, nofun⟩
  ops other known := by
    obtain rfl := some.inj known
    exact ops
  cycle := cycle

theorem Settled.remove (cycle : InCycle .removed callbacks) : Settled b ⟨.removed, none⟩ callbacks where
  driver := ⟨fun _ => rfl, fun _ => rfl⟩
  ops := nofun
  cycle := cycle

end Settled

section Turn
variable {b : Board} {s s' : Kernel} {id : ℕ} {call : Call} {iter : Option Device}

section
variable (within : Within b s.devices s id call)
include within

theorem Within.deviceOpen {type : Option String} {device_id : ℕ}
    (function : call.function = .deviceOpen type device_id)
    (turned : deviceOpen b s id call type device_id iter = some s') : After b s.devices s' := by
  unfold Ara.deviceOpen at turned
  split at turned
  · obtain rfl := some.inj turned
    exact within.leave _
  · rename_i dev next
    obtain ⟨info, -, turned⟩ := bind_eq_some_iff.mp turned
    split at turned
    · split at turned
      · obtain rfl := some.inj turned
        exact within.leave _
      · rename_i probed
        have state : (s.devices dev).state = .probed := not_ne_iff.mp probed
        have settled := within.invariant.devices dev
        have cycle : InCycle .probed (s.callbacks dev) := state ▸ settled.cycle
        have present : (s.devices dev).state ≠ .removed := by
          rw [state]
          decide
        obtain ⟨driver, -, turned⟩ := bind_eq_some_iff.mp turned
        obtain ⟨ops, table, rfl⟩ := map_eq_some_iff.mp turned
        refine within.invoke (.inr (.inl state)) ?_ ?_ table (settled.move present (by decide) cycle)
          (settled.move present (by decide) cycle.opens) (fun _ => ⟨rfl, rfl⟩) fun within => within.leave _
        · rw [function]
          rfl
        · rw [function]
          change { s.devices dev with state := .probed } = s.devices dev
          rw [← state]
    · obtain rfl := some.inj turned
      exact within.loop _

theorem Within.deviceClose (isOpen : ∀ state, b.deviceIsOpen state = true ↔ state = .opened) {dev : Device}
    (function : call.function = .deviceClose (some dev)) (turned : deviceClose b s id call dev = some s') :
    After b s.devices s' := by
  unfold Ara.deviceClose at turned
  split at turned
  · obtain rfl := some.inj turned
    exact within.leave _
  · rename_i opened
    have state : (s.devices dev).state = .opened := (isOpen _).mp (Bool.of_not_eq_false opened)
    have settled := within.invariant.devices dev
    have cycle : InCycle .opened (s.callbacks dev) := state ▸ settled.cycle
    have present : (s.devices dev).state ≠ .removed := by
      rw [state]
      decide
    obtain ⟨driver, -, turned⟩ := bind_eq_some_iff.mp turned
    obtain ⟨ops, table, rfl⟩ := map_eq_some_iff.mp turned
    refine within.invoke (.inr (.inr state)) ?_ ?_ table (settled.move present (by decide) cycle)
      (settled.move present (by decide) cycle.closes) (fun _ => ⟨rfl, rfl⟩) fun within => within.leave _
    · rw [function]
      rfl
    · rw [function]
      trivial

theorem Within.deviceRegisterDriver {driver : ℕ} (function : call.function = .deviceRegisterDriver (some driver))
    (turned : deviceRegisterDriver b s id call driver iter = some s') : After b s.devices s' := by
  unfold Ara.deviceRegisterDriver at turned
  split at turned
  · obtain rfl := some.inj turned
    exact within.leave _
  · rename_i dev next
    obtain ⟨info, -, turned⟩ := bind_eq_some_iff.mp turned
    split at turned
    · split at turned
      · obtain rfl := some.inj turned
        exact within.loop _
      · rename_i removed
        have state : (s.devices dev).state = .removed := not_ne_iff.mp removed
        have settled := within.invariant.devices dev
        have cycle : InCycle .removed (s.callbacks dev) := state ▸ settled.cycle
        have idle : (s.devices dev).state ∉ [.opening, .opened, .closing] := by
          rw [state]
          decide
        obtain ⟨ops, table, rfl⟩ := map_eq_some_iff.mp turned
        have known : (b.drivers driver).ops ≠ none := by
          rw [table]
          exact some_ne_none ops
        refine within.invoke (.inl state) ?_ ?_ table (Settled.bind known (by decide) cycle)
          (Settled.bind known (by decide) cycle.probe) (fun busy => absurd busy idle) fun within => within.loop _
        · rw [function]
          rfl
        · rw [function]
          change (⟨.removed, none⟩ : DeviceAra) = s.devices dev
          rw [← state, ← settled.driver.mp state]
    · obtain rfl := some.inj turned
      exact within.loop _

theorem Within.deviceUnregisterDriver {driver : ℕ} (function : call.function = .deviceUnregisterDriver (some driver))
    (turned : deviceUnregisterDriver b s id call driver iter = some s') : After b s.devices s' := by
  unfold Ara.deviceUnregisterDriver at turned
  split at turned
  · obtain rfl := some.inj turned
    exact within.leave _
  · rename_i dev next
    obtain ⟨info, -, turned⟩ := bind_eq_some_iff.mp turned
    split at turned
    · split at turned
      · obtain rfl := some.inj turned
        exact within.loop _
      · rename_i probed
        have state : (s.devices dev).state = .probed := not_ne_iff.mp probed
        have settled := within.invariant.devices dev
        have cycle : InCycle .probed (s.callbacks dev) := state ▸ settled.cycle
        have present : (s.devices dev).state ≠ .removed := by
          rw [state]
          decide
        have idle : (s.devices dev).state ∉ [.opening, .opened, .closing] := by
          rw [state]
          decide
        obtain ⟨ops, table, rfl⟩ := map_eq_some_iff.mp turned
        refine within.invoke (.inr (.inl state)) ?_ ?_ table (settled.move present (by decide) cycle)
          (Settled.remove cycle.remove) (fun busy => absurd busy idle) fun within => within.loop _
        · rw [function]
          rfl
        · rw [function]
          trivial
    · obtain rfl := some.inj turned
      exact within.loop _

theorem Within.callbackReturns {dev : Device} (free : s.Free id dev) {before : DeviceAra}
    (during : (s.devices dev).state = call.function.during) (restores : call.function.Restores before (s.devices dev))
    (ret : Int) : After b s.devices (s.callbackReturns id call dev before ret) := by
  have settled := within.invariant.devices dev
  have cycle : InCycle call.function.during (s.callbacks dev) := during ▸ settled.cycle
  have present : (s.devices dev).state ≠ .removed := fun gone =>
    call.function.during_transient (Or.inl (during.symm.trans gone))
  have idle {driver : Option ℕ} (apart : call.function.during ∉ [.opening, .opened, .closing]) :
      (s.devices dev).state ∈ [.opening, .opened, .closing] → driver = (s.devices dev).driver := by
    rw [during]
    exact fun busy => absurd busy apart
  unfold Kernel.callbackReturns
  cases function : call.function with
  | deviceOpen type device_id =>
    rw [function] at restores cycle
    change InCycle .probed (s.callbacks dev) at cycle
    by_cases failed : ret ≠ 0
    · dsimp only
      rw [if_pos failed]
      exact ((within.setDevice free (settled.move present (by decide) cycle) fun _ => rfl).fail
        restores).leave _
    · dsimp only
      rw [if_neg failed]
      exact (within.complete free (fun _ => rfl) (settled.move present (by decide) cycle.opens)
        fun _ => rfl).leave _
  | deviceClose device =>
    rw [function] at cycle
    change InCycle .opened (s.callbacks dev) at cycle
    exact (within.complete free (fun _ => rfl) (settled.move present (by decide) cycle.closes)
      fun _ => rfl).leave _
  | deviceRegisterDriver driver =>
    rw [function] at restores cycle idle
    change InCycle .removed (s.callbacks dev) at cycle
    by_cases failed : ret ≠ 0
    · dsimp only
      rw [if_pos failed]
      exact ((within.setDevice free (Settled.remove cycle) (idle (by simp [Function.during]))).fail restores).loop _
    · dsimp only
      rw [if_neg failed]
      exact (within.complete free (fun _ => rfl) (settled.move present (by decide) cycle.probe)
        fun _ => rfl).loop _
  | deviceUnregisterDriver driver =>
    rw [function] at cycle idle
    change InCycle .probed (s.callbacks dev) at cycle
    exact (within.complete free (fun _ => rfl) (Settled.remove cycle.remove) (idle (by simp [Function.during]))).loop _

theorem Within.turn (isOpen : ∀ state, b.deviceIsOpen state = true ↔ state = .opened)
    (turned : s.turn b id call iter = some s') : After b s.devices s' := by
  unfold Kernel.turn at turned
  cases function : call.function with
  | deviceOpen type device_id =>
    rw [function] at turned
    exact within.deviceOpen function turned
  | deviceClose dev =>
    rw [function] at turned
    obtain ⟨device, rfl, turned⟩ := bind_eq_some_iff.mp turned
    exact within.deviceClose isOpen function turned
  | deviceRegisterDriver driver =>
    rw [function] at turned
    obtain ⟨driver, rfl, turned⟩ := bind_eq_some_iff.mp turned
    exact within.deviceRegisterDriver function turned
  | deviceUnregisterDriver driver =>
    rw [function] at turned
    obtain ⟨driver, rfl, turned⟩ := bind_eq_some_iff.mp turned
    exact within.deviceUnregisterDriver function turned

end

theorem Sound.refused (sound : Sound b s) (function : Function) (result : Result) :
    Sound b { s with returns := s.returns ++ [(⟨function, result, s.irqGlobalState, s.irqGlobalState⟩ : Returned)] } where
  invariant := { sound.invariant with
    returns := fun returned among => by
      cases mem_append.mp among with
      | inl before => exact sound.invariant.returns returned before
      | inr new =>
        obtain rfl := mem_singleton.mp new
        rfl }
  owner := sound.owner

theorem Sound.starts (sound : Sound b s) (idle : s.owner = none) {function : Function}
    (accepted : function.refused b = none) : After b s.devices
      ((s.irqDisable id).atPlace id ⟨function, s.irqGlobalState, .loop none⟩ (.loop none)) := by
  have within : Within b s.devices (s.irqDisable id) id ⟨function, s.irqGlobalState, .loop none⟩ :=
    ⟨sound.irqDisable idle id, fun _ _ => rfl, rfl, rfl, accepted⟩
  exact within.loop none

/-- A step keeps each device in its life cycle. -/
theorem Sound.step (sound : Sound b s) (isOpen : ∀ state, b.deviceIsOpen state = true ↔ state = .opened) {event : Event}
    (stepped : step b s event = some s') : After b s.devices s' := by
  cases event with
  | call id function =>
    obtain ⟨⟨idle, -⟩, called⟩ := ite_none_right_eq_some.mp stepped
    split at called
    · obtain rfl := some.inj called
      exact ⟨sound.refused function _, fun _ _ => rfl⟩
    · rename_i accepted
      obtain rfl := some.inj called
      exact sound.starts idle accepted
  | turn =>
    obtain ⟨id, owner, found⟩ := bind_eq_some_iff.mp stepped
    obtain ⟨call, here, turned⟩ := bind_eq_some_iff.mp found
    obtain ⟨own, known, iter, place⟩ := sound.owner id owner
    obtain rfl := some.inj (here.symm.trans known)
    rw [place] at turned
    exact (sound.within here place).turn isOpen turned
  | callbackReturns id ret =>
    obtain ⟨call, here, returned⟩ := bind_eq_some_iff.mp stepped
    split at returned
    · cases returned
    · rename_i dev before place
      obtain ⟨⟨idle, depth⟩, rfl⟩ := ite_some_none_eq_some.mp returned
      obtain ⟨during, restores⟩ := sound.invariant.during id (by simp) call here dev before place
      have free : (s.irqDisable id).Free id dev := fun other differs inside =>
        differs (sound.invariant.alone other id dev (by simp) (by simp) inside ⟨call, before, here, place⟩)
      exact (sound.callbackReturned here idle depth).callbackReturns free during restores ret
  | deviceTableRegister table =>
    obtain ⟨⟨-, some_device⟩, rfl⟩ := ite_some_none_eq_some.mp stepped
    have invariant := sound.invariant
    exact ⟨⟨{ invariant with
      tables := fun other among => by
        cases mem_append.mp among with
        | inl before => exact invariant.tables other before
        | inr new =>
          obtain rfl := mem_singleton.mp new
          exact some_device }, sound.owner⟩, fun _ _ => rfl⟩
  | nest depth =>
    obtain ⟨idle, rfl⟩ := ite_some_none_eq_some.mp stepped
    have invariant := sound.invariant
    exact ⟨⟨{ invariant with
      loops := fun id _ call known iter place => by
        have owner := (invariant.loops id (by simp) call known iter place).1
        rw [idle] at owner
        cases owner }, sound.owner⟩, fun _ _ => rfl⟩

theorem info_next (some_device : ∀ table ∈ s.tables, table ≠ []) {dev : Device}
    (next : deviceTableIterNext s.tables iter = some dev) : ∃ info, s.info dev = some info := by
  unfold deviceTableIterNext at next
  extract_lets position at next
  obtain ⟨table, here, next⟩ := bind_eq_some_iff.mp next
  unfold Kernel.info
  by_cases inside : table.length ≤ position.2
  · rw [if_pos inside] at next
    obtain ⟨more, found⟩ := ite_none_left_eq_some.mp next
    obtain rfl := some.inj found
    obtain ⟨within, -⟩ := List.getElem?_eq_some_iff.mp here
    have later : position.1 + 1 < s.tables.length := by omega
    have first : s.tables[position.1 + 1] ≠ [] := some_device _ (getElem_mem later)
    have info := List.getElem?_eq_getElem (length_pos_iff.mpr first)
    exact ⟨_, bind_eq_some_iff.mpr ⟨_, List.getElem?_eq_getElem later, info⟩⟩
  · rw [if_neg inside] at next
    obtain rfl := some.inj next
    exact ⟨_, bind_eq_some_iff.mpr ⟨table, here, List.getElem?_eq_getElem (Nat.not_le.mp inside)⟩⟩

theorem register_accepted {driver : Option ℕ} (accepted : (Function.deviceRegisterDriver driver).refused b = none) :
    ∃ known ops, driver = some known ∧ (b.drivers known).ops = some ops := by
  unfold Function.refused at accepted
  cases driver with
  | none => cases accepted
  | some driver =>
    dsimp only [map_some] at accepted
    cases table : (b.drivers driver).ops with
    | some ops => exact ⟨driver, ops, rfl, table⟩
    | none =>
      split at accepted
      · rename_i type name ops here
        have same := congrArg DeviceDriver.ops (some.inj here)
        rw [table] at same
        cases same
      · cases accepted

theorem Sound.ops (sound : Sound b s) (dev : Device) (present : (s.devices dev).state ≠ .removed) :
    ∃ driver ops, (s.devices dev).driver = some driver ∧ (b.drivers driver).ops = some ops := by
  have settled := sound.invariant.devices dev
  obtain ⟨driver, bound⟩ := ne_none_iff_exists'.mp fun none => present (settled.driver.mpr none)
  obtain ⟨ops, table⟩ := ne_none_iff_exists'.mp (settled.ops driver bound)
  exact ⟨driver, ops, bound, table⟩

theorem Sound.turn_isSome (sound : Sound b s)
    (isOpen : ∀ state, b.deviceIsOpen state = true ↔ state = .opened) (here : s.calls id = some call) :
    (s.turn b id call iter).isSome := by
  have accepted := sound.invariant.accepted id call here
  have tables := sound.invariant.tables
  unfold Kernel.turn
  cases function : call.function with
  | deviceOpen type device_id =>
    dsimp only
    unfold deviceOpen
    cases next : deviceTableIterNext s.tables iter with
    | none => rfl
    | some dev =>
      obtain ⟨info, found⟩ := info_next tables next
      dsimp only
      rw [found, bind_some]
      split
      · split
        · rfl
        · rename_i probed
          have state : (s.devices dev).state = .probed := not_ne_iff.mp probed
          obtain ⟨driver, ops, bound, table⟩ := sound.ops dev (by rw [state]; decide)
          rw [bound, bind_some, table]
          rfl
      · rfl
  | deviceClose dev =>
    rw [function] at accepted
    cases dev with
    | none => cases accepted
    | some dev =>
      dsimp only
      rw [bind_some]
      unfold deviceClose
      split
      · rfl
      · rename_i opened
        have state : (s.devices dev).state = .opened := (isOpen _).mp (Bool.of_not_eq_false opened)
        obtain ⟨driver, ops, bound, table⟩ := sound.ops dev (by rw [state]; decide)
        dsimp only
        rw [bound, bind_some, table]
        rfl
  | deviceRegisterDriver driver =>
    rw [function] at accepted
    obtain ⟨driver, ops, rfl, table⟩ := register_accepted accepted
    dsimp only
    rw [bind_some]
    unfold deviceRegisterDriver
    cases next : deviceTableIterNext s.tables iter with
    | none => rfl
    | some dev =>
      obtain ⟨info, found⟩ := info_next tables next
      dsimp only
      rw [found, bind_some, table, map_some]
      split_ifs <;> rfl
  | deviceUnregisterDriver driver =>
    rw [function] at accepted
    cases driver with
    | none => cases accepted
    | some driver =>
      dsimp only
      rw [bind_some]
      unfold deviceUnregisterDriver
      cases next : deviceTableIterNext s.tables iter with
      | none => rfl
      | some dev =>
        obtain ⟨info, found⟩ := info_next tables next
        dsimp only
        rw [found, bind_some]
        split
        · rename_i bound
          obtain ⟨ops, table⟩ := ne_none_iff_exists'.mp ((sound.invariant.devices dev).ops driver bound)
          rw [table, map_some]
          split_ifs <;> rfl
        · rfl

theorem Sound.goes (sound : Sound b s) (isOpen : ∀ state, b.deviceIsOpen state = true ↔ state = .opened)
    (busy : s.owner ≠ none) : (Ara.step b s .turn).isSome := by
  obtain ⟨id, owner⟩ := ne_none_iff_exists'.mp busy
  obtain ⟨call, here, iter, place⟩ := sound.owner id owner
  have here : s.calls id = some call := here
  unfold Ara.step
  dsimp only
  rw [owner, bind_some, here, bind_some, place]
  exact sound.turn_isSome isOpen here

theorem Sound.start (b : Board) : Sound b Kernel.boot where
  invariant := {
    devices := fun _ => Settled.remove ⟨[], rfl⟩
    during := nofun
    alone := fun _ _ _ _ _ ⟨_, _, known, _⟩ => nomatch known
    loops := nofun
    accepted := nofun
    tables := nofun
    called := nofun
    failed := nofun
    returns := nofun }
  owner := nofun

theorem Sound.lifeCycle (sound : Sound b s) (isOpen : ∀ state, b.deviceIsOpen state = true ↔ state = .opened) :
    LifeCycle b s where
  callbacks dev := (sound.invariant.devices dev).cycle.begins
  called full dev := by
    unfold Kernel.called Kernel.callbacks
    congr 1
    refine filter_congr fun completed among => decide_eq_decide.mpr ?_
    exact and_iff_left (sound.invariant.called full completed among)
  alone one two dev := sound.invariant.alone one two dev (by simp) (by simp)
  opener dev := (sound.invariant.devices dev).cycle.count_le
  driver dev present none := present ((sound.invariant.devices dev).driver.mpr none)
  bound event s' stepped := (sound.step isOpen stepped).bound
  failed := sound.invariant.failed
  returns := sound.invariant.returns
  goes := sound.goes isOpen

end Turn

/-- The devices follow their life cycle in every run. -/
theorem devices_follow_life_cycle (b : Board) (isOpen : ∀ state, b.deviceIsOpen state = true ↔ state = .opened)
    {events : List Event} {s : Kernel} (ran : run (step b) Kernel.boot events = some s) : LifeCycle b s := by
  have sound := run_invariant (Sound b) (Sound.start b) ran fun sound stepped => (sound.step isOpen stepped).sound
  exact sound.lifeCycle isOpen

/-- A table with one device, and drivers with all callbacks (0) or without `close` (1) -/
def oneDevice : List DeviceInfo := [⟨"pll", "tsb_pll", 0⟩]

def twoDrivers : Board where
  drivers driver := ⟨some "pll", some "tsb_pll", some ⟨true, true, true, decide (driver = 0)⟩⟩
  deviceIsOpen state := decide (state = .opened)

/-- The driver is registered, the device is opened while a second call wants to open it, and closed. -/
def openAndClose : List Event :=
  [.deviceTableRegister oneDevice, .call 0 (.deviceRegisterDriver (some 0)), .turn, .callbackReturns 0 0, .turn,
    .call 1 (.deviceOpen (some "pll") 0), .turn, .call 2 (.deviceOpen (some "pll") 0), .turn, .callbackReturns 1 0,
    .call 3 (.deviceClose (some (0, 0))), .turn, .callbackReturns 3 0]

theorem devices_follow_life_cycle_openAndClose :
    ∃ s, run (step twoDrivers) Kernel.boot openAndClose = some s ∧ s.called (0, 0) = [.probe, .opens, .closes] ∧
      LifeCycle twoDrivers s := by
  refine exists_final (fun s => s.called (0, 0)) [.probe, .opens, .closes] (by decide +kernel) fun s ran called => ?_
  exact ⟨called, devices_follow_life_cycle twoDrivers (fun _ => decide_eq_true_iff) ran⟩

/-- The device of a driver without `close` is opened twice. -/
def openTwice : List Event :=
  [.deviceTableRegister oneDevice, .call 0 (.deviceRegisterDriver (some 1)), .turn, .callbackReturns 0 0, .turn,
    .call 1 (.deviceOpen (some "pll") 0), .turn, .callbackReturns 1 0, .call 2 (.deviceClose (some (0, 0))), .turn,
    .call 3 (.deviceOpen (some "pll") 0), .turn, .callbackReturns 3 0]

/-- Two calls of `open` come after each other. -/
theorem driver_without_close :
    ∃ s, run (step twoDrivers) Kernel.boot openTwice = some s ∧ s.called (0, 0) = [.probe, .opens, .opens] ∧
      ¬∃ openings : List ℕ, s.called (0, 0) <+: openings.flatMap lifeCycle := by
  refine exists_final (fun s => s.called (0, 0)) [.probe, .opens, .opens] (by decide +kernel) fun s ran called => ?_
  refine ⟨called, ?_⟩
  rw [called]
  rintro ⟨openings, rest, whole⟩
  rcases openings with _ | ⟨_ | count, others⟩
  · cases whole
  · cases whole
  · cases whole

end Phabos.Ara
