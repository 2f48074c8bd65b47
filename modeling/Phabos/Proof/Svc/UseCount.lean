import Mathlib.Algebra.Ring.Nat
import Phabos.Library.Run
import Phabos.Construction.Svc.Vreg

namespace Phabos.Power
open Function (update update_of_ne update_self)

open Library

/-- What one step can do -/
inductive Step (vreg : Vreg) (m : Machine) : Action → Machine → Prop
  | get (task : Nat) (idle : m.places task = .idle) : Step vreg m (.get task) (m.vregGet vreg task)
  | surplus (task : Nat) (idle : m.places task = .idle) (unused : m.useCount = 0) : Step vreg m (.put task) m
  | test (task : Nat) (idle : m.places task = .idle) (used : m.useCount ≠ 0) :
      Step vreg m (.put task) { m with places := update m.places task .tested }
  | decrement (task : Nat) (tested : m.places task = .tested) :
      Step vreg m (.advance task) (m.decrement vreg task)
  | writeGpio (task : Nat) (on : Bool) (data : VregData) (left : List VregData)
      (switching : m.places task = .switching on (data :: left)) :
      Step vreg m (.advance task) (m.writeGpio task on data left)
  | writePowerState (task : Nat) (on : Bool) (switching : m.places task = .switching on []) :
      Step vreg m (.advance task) (m.writePowerState task on)

/-- What a step can do, with its guard. -/
theorem step_cases {vreg : Vreg} {m next : Machine} {action : Action} (stepped : step vreg m action = some next) :
    Step vreg m action next := by
  cases action with
  | get task =>
    simp only [step] at stepped
    split at stepped
    next idle =>
      cases stepped
      exact .get task idle
    next => cases stepped
  | put task =>
    simp only [step] at stepped
    split at stepped
    next idle =>
      cases stepped
      by_cases unused : m.useCount = 0
      · rw [Machine.vregPut, if_pos unused]
        exact .surplus task idle unused
      · rw [Machine.vregPut, if_neg unused]
        exact .test task idle unused
    next => cases stepped
  | advance task =>
    simp only [step] at stepped
    split at stepped
    next => cases stepped
    next tested =>
      cases stepped
      exact .decrement task tested
    next on data left switching =>
      cases stepped
      exact .writeGpio task on data left switching
    next on switching =>
      cases stepped
      exact .writePowerState task on switching

section Ahead
variable {places : Nat → Place} {on : Bool} {gpio task : Nat} {place : Place}

theorem WriteAhead.kept (ahead : WriteAhead places on gpio)
    (without : ∀ left, places task = .switching on left → ∀ data ∈ left, data.gpio ≠ gpio) :
    WriteAhead (update places task place) on gpio := by
  obtain ⟨other, left, switching, data, within, same⟩ := ahead
  have apart : other ≠ task := by
    rintro rfl
    exact without left switching data within same
  exact ⟨other, left, by rw [update_of_ne apart, switching], data, within, same⟩

theorem PowerAhead.kept (ahead : PowerAhead places on) (without : ∀ left, places task ≠ .switching on left) :
    PowerAhead (update places task place) on := by
  obtain ⟨other, left, switching⟩ := ahead
  have apart : other ≠ task := by
    rintro rfl
    exact without left switching
  exact ⟨other, left, by rw [update_of_ne apart, switching]⟩

theorem WriteAhead.of_update {left : List VregData} {data : VregData} (within : data ∈ left) :
    WriteAhead (update places task (.switching on left)) on data.gpio :=
  ⟨task, left, update_self .., data, within, rfl⟩

theorem PowerAhead.of_update {left : List VregData} :
    PowerAhead (update places task (.switching on left)) on :=
  ⟨task, left, update_self ..⟩

end Ahead

/-- The use count is the number of gets less the number of puts that decremented. Once the regulator was used, each
GPIO and the power state agree with the count, or a call in progress has the write ahead that makes them agree. -/
structure Sound (vreg : Vreg) (m : Machine) : Prop where
  counted : m.useCount.toNat + m.puts = m.gets
  within : ∀ task on left, m.places task = .switching on left → ∀ data ∈ left, data ∈ vreg.vregs
  line : 0 < m.gets → ∀ data ∈ vreg.vregs,
    m.lines data.gpio = data.level m.on ∨ WriteAhead m.places m.on data.gpio
  power : m.powerState = m.on ∨ PowerAhead m.places m.on

theorem sound_vregConfig (vreg : Vreg) (lines : Nat → Bool) : Sound vreg (vregConfig vreg lines) where
  counted := rfl
  within := by
    intro task on left switching
    cases switching
  line := by
    intro used
    exact absurd used (Nat.lt_irrefl 0)
  power := .inl rfl

theorem Machine.on_eq_true {m : Machine} : m.on = true ↔ m.useCount ≠ 0 := decide_eq_true_iff

theorem Machine.on_eq_false {m : Machine} : m.on = false ↔ m.useCount = 0 := by
  unfold Machine.on
  rw [decide_eq_false_iff_not, Classical.not_not]

variable {vreg : Vreg}

variable {m : Machine}

theorem within_update {task : Nat} {place : Place}
    (within : ∀ task on left, m.places task = .switching on left → ∀ data ∈ left, data ∈ vreg.vregs)
    (here : ∀ on left, place = .switching on left → ∀ data ∈ left, data ∈ vreg.vregs) (other : Nat) (on : Bool)
    (left : List VregData) (switching : update m.places task place other = .switching on left) :
    ∀ data ∈ left, data ∈ vreg.vregs := by
  by_cases same : other = task
  · subst same
    rw [update_self] at switching
    exact here on left switching
  · rw [update_of_ne same] at switching
    exact within other on left switching

section
variable (sound : Sound vreg m) {task : Nat}
include sound

theorem Sound.get (idle : m.places task = .idle) (small : m.useCount ≠ -1) : Sound vreg (m.vregGet vreg task) := by
  have grown : (m.useCount + 1).toNat = m.useCount.toNat + 1 := by
    have below : m.useCount.toNat ≠ (-1 : BitVec 32).toNat := fun same => small (BitVec.eq_of_toNat_eq same)
    have bound := m.useCount.isLt
    rw [BitVec.toNat_add]
    change m.useCount.toNat ≠ 2 ^ 32 - 1 at below
    change (m.useCount.toNat + 1) % 2 ^ 32 = _
    omega
  have used : (m.vregGet vreg task).on = true := by
    rw [Machine.on_eq_true]
    intro zero
    have none : (m.useCount + 1).toNat = 0 := congrArg BitVec.toNat zero
    omega
  have notHere : ∀ on left, m.places task ≠ .switching on left := by
    intro on left switching
    rw [idle] at switching
    cases switching
  constructor
  case counted =>
    change (m.useCount + 1).toNat + m.puts = m.gets + 1
    have counted := sound.counted
    omega
  case within =>
    apply within_update sound.within
    rintro on left switching data within
    cases switching
    split at within
    · exact within
    · cases within
  case line =>
    intro _ data within
    rw [used]
    by_cases first : m.useCount + 1 = 1
    · right
      change WriteAhead (update m.places task (.switching true (if _ then _ else _))) true data.gpio
      rw [if_pos first]
      exact .of_update within
    · have already : m.on = true := by
        rw [Machine.on_eq_true]
        intro zero
        exact first (by rw [zero]; rfl)
      have before := sound.line (by
        have counted := sound.counted
        have positive : m.useCount.toNat ≠ 0 := fun zero => Machine.on_eq_true.mp already (BitVec.eq_of_toNat_eq zero)
        omega) data within
      rw [already] at before
      exact before.imp_right fun ahead => ahead.kept fun left switching => absurd switching (notHere true left)
  case power =>
    rw [used]
    exact .inr .of_update

theorem Sound.test (idle : m.places task = .idle) :
    Sound vreg { m with places := update m.places task .tested } := by
  have notHere : ∀ on left, m.places task ≠ .switching on left := by
    intro on left switching
    rw [idle] at switching
    cases switching
  constructor
  case counted => exact sound.counted
  case within =>
    apply within_update sound.within
    rintro on left switching
    cases switching
  case line =>
    intro used data within
    exact (sound.line used data within).imp_right fun ahead =>
      ahead.kept fun left switching => absurd switching (notHere m.on left)
  case power => exact sound.power.imp_right fun ahead => ahead.kept fun left => notHere m.on left

theorem Sound.decrement (tested : m.places task = .tested) (positive : m.useCount ≠ 0) :
    Sound vreg (m.decrement vreg task) := by
  have natPositive : m.useCount.toNat ≠ 0 := fun zero => positive (BitVec.eq_of_toNat_eq zero)
  have shrunk : (m.useCount - 1).toNat = m.useCount.toNat - 1 := by
    rw [BitVec.toNat_sub]
    change (2 ^ 32 - 1 + m.useCount.toNat) % 2 ^ 32 = _
    have bound := m.useCount.isLt
    omega
  have notHere : ∀ on left, m.places task ≠ .switching on left := by
    intro on left switching
    rw [tested] at switching
    cases switching
  have counted := sound.counted
  constructor
  case counted =>
    change (m.useCount - 1).toNat + (m.puts + 1) = m.gets
    omega
  case within =>
    apply within_update sound.within
    rintro on left switching data within
    split at switching
    · cases switching
      exact within
    · cases switching
  case line =>
    intro used data within
    by_cases last : m.useCount - 1 = 0
    · have off : (m.decrement vreg task).on = false := Machine.on_eq_false.mpr last
      rw [off]
      right
      change WriteAhead (update m.places task (if _ then _ else _)) false data.gpio
      rw [if_pos last]
      exact .of_update within
    · have still : (m.decrement vreg task).on = m.on :=
        (Machine.on_eq_true.mpr last).trans (Machine.on_eq_true.mpr positive).symm
      rw [still]
      exact (sound.line used data within).imp_right fun ahead =>
        ahead.kept fun left switching => absurd switching (notHere m.on left)
  case power =>
    by_cases last : m.useCount - 1 = 0
    · have off : (m.decrement vreg task).on = false := Machine.on_eq_false.mpr last
      rw [off]
      right
      change PowerAhead (update m.places task (if _ then _ else _)) false
      rw [if_pos last]
      exact .of_update
    · have still : (m.decrement vreg task).on = m.on :=
        (Machine.on_eq_true.mpr last).trans (Machine.on_eq_true.mpr positive).symm
      rw [still]
      exact sound.power.imp_right fun ahead => ahead.kept fun left => notHere m.on left

theorem Sound.writeGpio {on : Bool} {data : VregData} {left : List VregData}
    (switching : m.places task = .switching on (data :: left))
    (orderly : m.on = on ∨ WriteAhead m.places m.on data.gpio) : Sound vreg (m.writeGpio task on data left) := by
  have listed : data ∈ vreg.vregs := sound.within task on _ switching data List.mem_cons_self
  constructor
  case counted => exact sound.counted
  case within =>
    apply within_update sound.within
    rintro other rest same entry within
    cases same
    exact sound.within task on _ switching entry (.tail _ within)
  case line =>
    intro used entry within
    change update m.lines data.gpio (data.level on) entry.gpio = entry.level m.on ∨
      WriteAhead (update m.places task (.switching on left)) m.on entry.gpio
    by_cases same : entry.gpio = data.gpio
    · rw [same, update_self, vreg.oneLevel entry within data listed same]
      by_cases agrees : m.on = on
      · rw [agrees]
        exact .inl rfl
      · refine .inr ((orderly.resolve_left agrees).kept ?_)
        intro rest elsewhere
        rw [switching] at elsewhere
        cases elsewhere
        exact absurd rfl agrees
    · rw [update_of_ne same]
      rcases sound.line used entry within with right | ⟨other, rest, ahead, later, among, sameGpio⟩
      · exact .inl right
      · right
        by_cases here : other = task
        · subst here
          rw [switching] at ahead
          cases ahead
          have rests : later ∈ left := by
            rcases List.mem_cons.mp among with rfl | rests
            · exact absurd sameGpio.symm same
            · exact rests
          exact ⟨other, left, update_self .., later, rests, sameGpio⟩
        · exact ⟨other, rest, by rw [update_of_ne here, ahead], later, among, sameGpio⟩
  case power =>
    refine sound.power.imp_right ?_
    rintro ⟨other, rest, ahead⟩
    change PowerAhead (update m.places task (.switching on left)) m.on
    by_cases here : other = task
    · subst here
      rw [switching] at ahead
      injection ahead with sameOn _
      rw [← sameOn]
      exact .of_update
    · exact ⟨other, rest, by rw [update_of_ne here, ahead]⟩

theorem Sound.writePowerState {on : Bool} (switching : m.places task = .switching on [])
    (orderly : m.on = on ∨ PowerAhead m.places m.on) : Sound vreg (m.writePowerState task on) := by
  constructor
  case counted => exact sound.counted
  case within =>
    apply within_update sound.within
    rintro other rest same
    cases same
  case line =>
    intro used entry within
    refine (sound.line used entry within).imp_right fun ahead => ahead.kept ?_
    intro rest elsewhere
    rw [switching] at elsewhere
    cases elsewhere
    intro data within
    cases within
  case power =>
    change on = m.on ∨ PowerAhead (update m.places task .idle) m.on
    by_cases agrees : m.on = on
    · exact .inl agrees.symm
    · refine .inr ((orderly.resolve_left agrees).kept ?_)
      intro rest elsewhere
      rw [switching] at elsewhere
      cases elsewhere
      exact agrees rfl

end

/-- An orderly step keeps the count of the users. -/
theorem Sound.step {m next : Machine} {action : Action} (sound : Sound vreg m)
    (orderly : Orderly m action) (stepped : step vreg m action = some next) : Sound vreg next := by
  cases step_cases stepped with
  | get task idle => exact sound.get idle orderly
  | surplus task idle unused => exact sound
  | test task idle used => exact sound.test idle
  | decrement task tested =>
    simp only [Orderly, tested] at orderly
    exact sound.decrement tested orderly
  | writeGpio task on data left switching =>
    simp only [Orderly, switching] at orderly
    exact sound.writeGpio switching orderly
  | writePowerState task on switching =>
    simp only [Orderly, switching] at orderly
    exact sound.writePowerState switching orderly

/-- The use count is the number of gets less the number of effective puts. When no call is in progress and the
regulator was used, the GPIOs and the power state agree with that number. A put on an unused regulator changes
nothing. -/
structure InAccord (vreg : Vreg) (m : Machine) : Prop where
  counted : m.useCount.toNat + m.puts = m.gets
  lines : (∀ task, m.places task = .idle) → 0 < m.gets → ∀ data ∈ vreg.vregs,
    m.lines data.gpio = data.level (m.puts < m.gets)
  powerState : (∀ task, m.places task = .idle) → m.powerState = decide (m.puts < m.gets)
  surplus : m.puts = m.gets → ∀ task, m.places task = .idle → step vreg m (.put task) = some m

/-- A sound regulator is on exactly while it has users. -/
theorem Sound.inAccord (sound : Sound vreg m) : InAccord vreg m := by
  have counted := sound.counted
  have on : m.on = decide (m.puts < m.gets) := by
    by_cases unused : m.useCount = 0
    · have zero : m.useCount.toNat = 0 := congrArg BitVec.toNat unused
      rw [Machine.on_eq_false.mpr unused, decide_eq_false (by omega)]
    · have positive : m.useCount.toNat ≠ 0 := fun zero => unused (BitVec.eq_of_toNat_eq zero)
      rw [Machine.on_eq_true.mpr unused, decide_eq_true (by omega)]
  constructor
  case counted => exact counted
  case lines =>
    intro quiet used data within
    rw [← on]
    refine (sound.line used data within).resolve_right ?_
    rintro ⟨task, left, switching, _⟩
    rw [quiet task] at switching
    cases switching
  case powerState =>
    intro quiet
    rw [← on]
    refine sound.power.resolve_right ?_
    rintro ⟨task, left, switching⟩
    rw [quiet task] at switching
    cases switching
  case surplus =>
    intro even task idle
    have unused : m.useCount = 0 := by
      apply BitVec.eq_of_toNat_eq
      change m.useCount.toNat = 0
      omega
    simp only [Phabos.Power.step, if_pos idle, Machine.vregPut, if_pos unused]

/-- Every run of gets and puts whose steps are orderly keeps the regulator in accord with its use count. -/
theorem vreg_use_count_in_accord (vreg : Vreg) (lines : Nat → Bool) (actions : List Action) (final : Machine)
    (orderly : Guarded (step vreg) Orderly (vregConfig vreg lines) actions)
    (ran : run (step vreg) (vregConfig vreg lines) actions = some final) : InAccord vreg final :=
  (run_invariant_of_guarded (Sound vreg) (sound_vregConfig vreg lines) orderly ran fun sound => sound.step).inAccord

/-- A regulator with one GPIO that is high to switch it on, and one that is low -/
def twoGpios : Vreg where
  vregs := [⟨7, 1, 0⟩, ⟨9, 0, 1⟩]
  oneLevel := by decide

/-- A task agrees with the count. -/
def Machine.agrees (m : Machine) : Place → Prop
  | .idle => True
  | .tested => m.useCount ≠ 0
  | .switching on _ => m.on = on

instance (m : Machine) (place : Place) : Decidable (m.agrees place) :=
  match place with
  | .idle => isTrue trivial
  | .tested => inferInstanceAs (Decidable (_ ≠ _))
  | .switching on _ => inferInstanceAs (Decidable (m.on = on))

/-- The calls agree with the count at each of their steps. -/
def OrderlyAlone (m : Machine) : Action → Prop
  | .get _ => m.useCount ≠ -1
  | .put _ => True
  | .advance task => m.agrees (m.places task)

instance (m : Machine) (action : Action) : Decidable (OrderlyAlone m action) :=
  match action with
  | .get _ => inferInstanceAs (Decidable (_ ≠ _))
  | .put _ => isTrue trivial
  | .advance task => inferInstanceAs (Decidable (m.agrees (m.places task)))

theorem OrderlyAlone.orderly {action : Action} (alone : OrderlyAlone m action) : Orderly m action := by
  cases action with
  | get task => exact alone
  | put task => trivial
  | advance task =>
    simp only [OrderlyAlone] at alone
    simp only [Orderly]
    split
    next => trivial
    next tested =>
      rw [tested] at alone
      exact alone
    next on data left switching =>
      rw [switching] at alone
      exact .inl alone
    next on switching =>
      rw [switching] at alone
      exact .inl alone

/-- Task 1 gets the regulator, task 2 gets it too, and both put it. -/
def twoUsers : List Action :=
  [.get 1, .advance 1, .get 2, .advance 2, .advance 1, .advance 1, .put 2, .advance 2, .put 1, .advance 1,
    .advance 1, .advance 1, .advance 1]

theorem vreg_use_count_in_accord_two_users :
    ∃ final, run (step twoGpios) (vregConfig twoGpios fun _ => true) twoUsers = some final ∧
      InAccord twoGpios final ∧ final.gets = 2 ∧ final.puts = 2 := by
  refine exists_final (fun m => (m.gets, m.puts)) (2, 2) (by decide +kernel) fun final ran same => ?_
  have orderly : Guarded (step twoGpios) Orderly (vregConfig twoGpios fun _ => true) twoUsers :=
    .mono (fun _ _ => OrderlyAlone.orderly) (by decide +kernel)
  exact ⟨vreg_use_count_in_accord twoGpios _ twoUsers final orderly ran,
    congrArg Prod.fst same, congrArg Prod.snd same⟩

/-- The task that performs a step -/
def Action.task : Action → Nat
  | .get task | .put task | .advance task => task

theorem step_places_other {m next : Machine} {action : Action}
    (stepped : step vreg m action = some next) {task : Nat} (other : action.task ≠ task) :
    next.places task = m.places task := by
  cases step_cases stepped with
  | surplus => rfl
  | _ => exact update_of_ne other.symm ..

theorem run_places_other {m final : Machine} {actions : List Action} {task : Nat}
    (others : ∀ action ∈ actions, action.task ≠ task) (ran : run (step vreg) m actions = some final) :
    final.places task = m.places task :=
  run_invariant_of_guarded (fun current => current.places task = m.places task) rfl
    (Guarded.of_forall fun action within _ => others action within) ran fun kept other stepped =>
    (step_places_other stepped other).trans kept

/-- Two puts find the count 1, and both decrement it. -/
def twoPuts : List Action :=
  [.get 1, .advance 1, .advance 1, .advance 1, .put 1, .put 2, .advance 1, .advance 1, .advance 1, .advance 1,
    .advance 2]

/-- A get increments the count after a put has made it 0, and writes the GPIOs and the power state before the put. -/
def putAfterGet : List Action :=
  [.get 1, .advance 1, .advance 1, .advance 1, .put 1, .advance 1, .get 2, .advance 2, .advance 2, .advance 2,
    .advance 1, .advance 1, .advance 1]

/-- The first run makes the use count wrap, and the second one ends with the regulator off and one user. -/
theorem vreg_put_breaks_use_count :
    (∃ final, run (step twoGpios) (vregConfig twoGpios fun _ => true) twoPuts = some final ∧
      ¬ InAccord twoGpios final) ∧
    ∃ final, run (step twoGpios) (vregConfig twoGpios fun _ => true) putAfterGet = some final ∧
      ¬ InAccord twoGpios final := by
  refine ⟨?_, ?_⟩
  · refine exists_final (fun m => (m.useCount, m.gets)) (-1, 1) (by decide +kernel) fun final ran same => ?_
    intro accord
    have count : final.useCount = -1 := congrArg Prod.fst same
    have gets : final.gets = 1 := congrArg Prod.snd same
    have counted := accord.counted
    rw [count, gets] at counted
    change 2 ^ 32 - 1 + final.puts = 1 at counted
    omega
  · refine exists_final (fun m => (m.powerState, m.puts, m.gets, m.places 1, m.places 2))
      (false, 1, 2, .idle, .idle) (by decide +kernel) fun final ran same => ?_
    simp only [Prod.mk.injEq] at same
    obtain ⟨power, puts, gets, idle1, idle2⟩ := same
    intro accord
    have quiet : ∀ task, final.places task = .idle := by
      intro task
      by_cases first : task = 1
      · exact first ▸ idle1
      · by_cases second : task = 2
        · exact second ▸ idle2
        · refine run_places_other ?_ ran
          have tasks : ∀ action ∈ putAfterGet, action.task = 1 ∨ action.task = 2 := by decide
          intro action within same
          rcases tasks action within with one | two
          · exact first (same.symm.trans one)
          · exact second (same.symm.trans two)
    have state := accord.powerState quiet
    rw [power, puts, gets] at state
    exact absurd state (by decide)

end Phabos.Power
