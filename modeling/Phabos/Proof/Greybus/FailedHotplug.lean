import Phabos.Construction.Greybus.Hotplug
import Phabos.Library.Effects

namespace Phabos.Hotplug
open List

open Library

/-- The object is allocated. -/
def Lives (object : Object) (s : System) : Prop := object ∈ s.live

theorem runFrom_alloc (env : Environment) (object : Object) (s : System) :
    runFrom (alloc env object) s =
      (.ok (env.memory object), if env.memory object then { s with live := object :: s.live } else s) := by
  unfold alloc
  cases env.memory object with
  | true => rfl
  | false => rfl

theorem runFrom_free (object : Object) (s : System) (live : object ∈ s.live) :
    runFrom (free object) s = (.ok (), { s with live := s.live.erase object, freed := object :: s.freed }) := by
  unfold free
  rw [runFrom_bind, runFrom_get]
  dsimp only
  rw [if_pos live, runFrom_modify]

section Keeping
variable {object : Object} {env : Environment}

theorem keeps_alloc (other : Object) : Keeps (Lives object) (alloc env other) := by
  intro s live
  rw [runFrom_alloc]
  dsimp only
  split
  · exact mem_cons_of_mem other live
  · exact live

theorem keeps_free {other : Object} (different : object ≠ other) : Keeps (Lives object) (free other) := by
  refine keeps_get.bind fun s => ?_
  split
  · refine keeps_modify fun s live => ?_
    exact (mem_erase_of_ne different).mpr live
  · exact keeps_throw _

theorem keeps_hashtableCreate {ht : Object} (table : Object) (different : object ≠ ht) :
    Keeps (Lives object) (hashtableCreate env ht table) := by
  refine (keeps_alloc ht).bind fun there => ?_
  split
  · refine (keeps_alloc table).bind fun there => ?_
    split
    · exact keeps_pure true
    · exact (keeps_free different).bind fun _ => keeps_pure false
  · exact keeps_pure false

theorem keeps_hashtableDestroy (there : Bool) {ht table : Object} (not_ht : object ≠ ht) (not_table : object ≠ table) :
    Keeps (Lives object) (hashtableDestroy there ht table) := by
  unfold hashtableDestroy
  split
  · exact (keeps_free not_table).bind fun _ => keeps_free not_ht
  · exact keeps_throw _

theorem keeps_gbBundleDestroy (index : Nat) (cports : Option Nat) (not_cport : ∀ cport, object ≠ .cport index cport)
    (not_ht : object ≠ .bundleCports index) (not_table : object ≠ .bundleCportsTable index)
    (not_bundle : object ≠ .bundle index) : Keeps (Lives object) (gbBundleDestroy index cports) := by
  refine (keeps_forM (fun cport => keeps_free (not_cport cport)) _).bind fun _ => ?_
  refine (keeps_hashtableDestroy _ not_ht not_table).bind fun _ => ?_
  exact keeps_free not_bundle

end Keeping

/-- What a failed initialisation leaves: `gb_interface_destroy` does not come to it on the task of the work queue, or
nobody frees it. -/
def outlasting : List Object :=
  [.interface, .workqueue, .name, .work, .controlDevice, .bundles, .bundlesTable]

section Initialisation
variable {object : Object} {env : Environment}

theorem workqueueDestroy_own (fd : Bool) (s : System) :
    runFrom (workqueueDestroy true fd) s = (.error .exited, s) := rfl

theorem ends_workqueueDestroy (fd : Bool) : Ends (workqueueDestroy true fd) := by
  intro s
  rw [workqueueDestroy_own]
  exact ⟨.exited, rfl⟩

theorem keeps_gbCportAllocate : Keeps (Lives object) (gbCportAllocate env) := by
  unfold gbCportAllocate
  refine keeps_get.bind fun s => ?_
  split
  · apply Keeps.bind
    · exact keeps_modify fun _ live => live
    · exact fun _ => keeps_pure _
  · exact keeps_pure _

theorem keeps_gbCportDeallocate (cport : Nat) : Keeps (Lives object) (gbCportDeallocate cport) :=
  keeps_modify fun _ live => live

theorem keeps_gbInterfaceDestroy (kept : object ∈ outlasting) (iface : Interface) :
    Keeps (Lives object) (gbInterfaceDestroy true iface) := by
  have different : ∀ other ∉ outlasting, object ≠ other := by
    rintro other out rfl
    exact out kept
  refine (keeps_forM ?_ _).bind fun _ => ?_
  · rintro ⟨cports, index⟩
    apply keeps_gbBundleDestroy
    · intro cport
      exact different _ (by simp [outlasting])
    all_goals exact different _ (by simp [outlasting])
  · apply (keeps_gbCportDeallocate iface.controlCport).bind
    intro _
    apply Keeps.bind_of_ends
    · intro s live
      rw [workqueueDestroy_own]
      exact live
    · exact ends_workqueueDestroy iface.fd

theorem keeps_gbControlGetManifest (not_manifest : object ≠ .manifest) :
    Keeps (Lives object) (gbControlGetManifest env) := by
  unfold gbControlGetManifest
  split
  · exact keeps_pure _
  split
  · exact keeps_pure _
  refine (keeps_alloc .manifest).bind fun there => ?_
  split
  · split
    · exact (keeps_free not_manifest).bind fun _ => keeps_pure _
    · exact keeps_pure _
  · exact keeps_pure _

theorem keeps_manifestParse (iface : Interface) : Keeps (Lives object) (manifestParse env iface) := by
  unfold manifestParse
  split
  · split
    · refine (keeps_modify fun s live => ?_).bind fun _ => keeps_pure _
      exact mem_append_right _ live
    · exact keeps_throw _
  · exact keeps_pure _

theorem keeps_gbInterfaceInit (not_manifest : object ≠ .manifest) (iface : Interface) :
    Keeps (Lives object) (gbInterfaceInit env iface) := by
  unfold gbInterfaceInit
  split
  · exact keeps_pure _
  split
  · exact keeps_pure _
  split
  · exact keeps_pure _
  refine (keeps_alloc .controlDevice).bind fun there => ?_
  split
  · refine (keeps_gbControlGetManifest not_manifest).bind fun retval => ?_
    split
    · exact keeps_pure _
    · exact keeps_manifestParse iface
  · exact keeps_pure _

theorem keeps_interfaceInit (kept : object ∈ outlasting) (iface : Interface) :
    Keeps (Lives object) (interfaceInit env true iface) := by
  have not_manifest : object ≠ .manifest := by
    rintro rfl
    exact absurd kept (by decide)
  refine (keeps_gbInterfaceInit not_manifest iface).bind fun ⟨retval, iface⟩ => ?_
  dsimp only
  split
  · apply Keeps.bind
    · exact keeps_modify fun _ live => live
    · intro _
      exact keeps_gbInterfaceDestroy kept iface
  · exact keeps_pure _

theorem keeps_taskDestroy (fd : Bool) (kept : object ∈ outlasting) : Keeps (Lives object) (taskDestroy fd) := by
  have different : ∀ other ∉ outlasting, object ≠ other := by
    rintro other out rfl
    exact out kept
  refine (keeps_free (different _ (by decide))).bind fun _ => ?_
  refine (keeps_hashtableDestroy fd (different _ (by decide)) (different _ (by decide))).bind fun _ => ?_
  exact keeps_free (different _ (by decide))

end Initialisation

section Name
variable {env : Environment}

theorem hashtableCreate_returns (ht table : Object) (s : System) :
    ∃ there, (runFrom (hashtableCreate env ht table) s).1 = .ok there := by
  unfold hashtableCreate
  rw [runFrom_bind, runFrom_alloc]
  dsimp only
  cases env.memory ht with
  | false => exact ⟨false, rfl⟩
  | true =>
    rw [if_pos rfl, if_pos rfl, runFrom_bind, runFrom_alloc]
    dsimp only
    cases env.memory table with
    | true => exact ⟨true, rfl⟩
    | false =>
      rw [if_neg Bool.false_ne_true, if_neg Bool.false_ne_true, runFrom_bind,
        runFrom_free ht _ mem_cons_self]
      exact ⟨false, rfl⟩

theorem leaves_alloc {object : Object} {exit : Ending} {holds : System → Prop} {Value : Type} {next : Bool → Code Value}
    (memory : env.memory object = true) (later : Leaves exit holds (next true)) :
    Leaves exit holds (alloc env object >>= next) := by
  apply Leaves.after
  intro s
  rw [runFrom_alloc]
  exact ⟨true, congrArg _ memory, later⟩

theorem leaves_taskCreate (task : env.memory .task = true) :
    Leaves .fault (Lives .name) (taskCreate env) := by
  apply leaves_alloc task
  rw [if_pos rfl]
  apply Leaves.after
  intro s
  obtain ⟨fd, returned⟩ := hashtableCreate_returns .fd .fdTable s
  refine ⟨fd, returned, ?_⟩
  intro s
  rw [runFrom_bind, runFrom_alloc]
  dsimp only
  cases env.memory .name with
  | true => exact Or.inr mem_cons_self
  | false => exact Or.inl rfl

theorem leaves_taskRun (task : env.memory .task = true) : Leaves .fault (Lives .name) (taskRun env) := by
  apply (leaves_taskCreate task).bind
  intro created
  split
  · exact keeps_pure _
  · refine (keeps_alloc .stack).bind fun there => ?_
    split
    · exact keeps_pure _
    · exact keeps_throw _

theorem leaves_gbInterfaceCreate (interface : env.memory .interface = true) (workqueue : env.memory .workqueue = true)
    (task : env.memory .task = true) : Leaves .fault (Lives .name) (gbInterfaceCreate env) := by
  apply leaves_alloc interface
  rw [if_pos rfl]
  have created : Leaves .fault (Lives .name) (workqueueCreate env) := by
    apply leaves_alloc workqueue
    rw [if_pos rfl]
    apply (leaves_taskRun task).bind
    intro ran
    split
    · exact (keeps_free (by decide)).bind fun _ => keeps_pure _
    · exact keeps_pure _
  apply created.bind
  intro wq
  split
  · exact (keeps_free (by decide)).bind fun _ => keeps_pure _
  · refine keeps_gbCportAllocate.bind fun cport => ?_
    split
    · exact (keeps_free (by decide)).bind fun _ => keeps_pure _
    · exact (keeps_hashtableCreate .bundlesTable (by decide)).bind fun _ => keeps_pure _

theorem leaves_hotPlug (interface : env.memory .interface = true) (workqueue : env.memory .workqueue = true)
    (task : env.memory .task = true) : Leaves .fault (Lives .name) (hotPlug env) := by
  have handled : Leaves .fault (Lives .name) (gbSvcIntfHotplug env) := by
    apply (leaves_gbInterfaceCreate interface workqueue task).bind
    intro created
    split
    · apply Keeps.bind
      · exact keeps_modify fun _ live => live
      · exact fun _ => keeps_pure _
    · refine (keeps_alloc .work).bind fun there => ?_
      split
      · exact keeps_pure _
      · exact keeps_pure _
  apply handled.bind
  intro queued
  split
  · exact keeps_pure _
  · next iface _ =>
    apply Keeps.tryCatch
    · exact (keeps_interfaceInit (by decide) iface).bind fun _ => keeps_free (by decide)
    · intro ending
      cases ending with
      | exited => exact keeps_taskDestroy iface.fd (by decide)
      | fault => exact keeps_throw _

end Name

section Handled
variable {env : Environment} {cportMap : List Nat}

theorem runFrom_hotPlug_none {s : System} (refused : runFrom (gbInterfaceCreate env) (start cportMap) = (.ok none, s)) :
    runFrom (hotPlug env) (start cportMap) = (.ok (), { s with reported := true }) := by
  have answered : runFrom (gbSvcIntfHotplug env) (start cportMap) =
      (.ok (gbOpNoMemory, none), { s with reported := true }) := by
    unfold gbSvcIntfHotplug
    rw [runFrom_bind, refused]
    rfl
  unfold hotPlug
  rw [runFrom_bind, answered]
  rfl

theorem leavesNothing_interface (interface : env.memory .interface = false) :
    LeavesNothing cportMap (runFrom (hotPlug env) (start cportMap)) := by
  have refused : runFrom (gbInterfaceCreate env) (start cportMap) = (.ok none, start cportMap) := by
    unfold gbInterfaceCreate
    rw [runFrom_bind, runFrom_alloc, interface]
    rfl
  rw [runFrom_hotPlug_none refused]
  exact ⟨rfl, rfl, rfl, nodup_nil, rfl⟩

theorem leavesNothing_workqueue (interface : env.memory .interface = true) (workqueue : env.memory .workqueue = false) :
    LeavesNothing cportMap (runFrom (hotPlug env) (start cportMap)) := by
  have refused : runFrom (gbInterfaceCreate env) (start cportMap) =
      (.ok none, { start cportMap with freed := [.interface] }) := by
    unfold gbInterfaceCreate workqueueCreate
    rw [runFrom_bind, runFrom_alloc, interface]
    dsimp only
    rw [if_pos rfl, if_pos rfl, runFrom_bind, runFrom_bind, runFrom_alloc, workqueue]
    rfl
  rw [runFrom_hotPlug_none refused]
  exact ⟨rfl, rfl, rfl, nodup_singleton _, rfl⟩

/-- Without memory for the task nothing is left behind. -/
theorem leavesNothing_task (interface : env.memory .interface = true) (workqueue : env.memory .workqueue = true)
    (task : env.memory .task = false) : LeavesNothing cportMap (runFrom (hotPlug env) (start cportMap)) := by
  have refused : runFrom (gbInterfaceCreate env) (start cportMap) =
      (.ok none, { start cportMap with freed := [.interface, .workqueue] }) := by
    unfold gbInterfaceCreate workqueueCreate taskRun taskCreate
    rw [runFrom_bind, runFrom_alloc, interface]
    dsimp only
    rw [if_pos rfl, if_pos rfl, runFrom_bind, runFrom_bind, runFrom_alloc, workqueue]
    dsimp only
    rw [if_pos rfl, if_pos rfl, runFrom_bind, runFrom_bind, runFrom_bind, runFrom_alloc, task]
    rfl
  rw [runFrom_hotPlug_none refused]
  have once : [Object.interface, Object.workqueue].Nodup := by decide
  exact ⟨rfl, rfl, rfl, once, rfl⟩

end Handled

/-- The allocations whose failure is handled: those of the interface, of the work queue and of its task -/
def handled : List Step := [.alloc .interface, .alloc .workqueue, .alloc .task]

/-- A hot-plug in which some step fails leaves nothing behind and reports the error exactly if the first failure is that of
the allocation of the interface, of the work queue or of its task. -/
theorem failed_hotplug_leaves_nothing_iff (env : Environment) (cportMap : List Nat) (step : Step)
    (first : steps.find? (env.fails cportMap) = some step) :
    LeavesNothing cportMap (runFrom (hotPlug env) (start cportMap)) ↔ step ∈ handled := by
  cases interface : env.memory .interface with
  | false =>
    have here : steps.find? (env.fails cportMap) = some (.alloc .interface) :=
      find?_cons_of_pos (by simp [Environment.fails, interface])
    obtain rfl := Option.some.inj (here.symm.trans first)
    exact iff_of_true (leavesNothing_interface interface) (by decide)
  | true =>
    unfold steps at first
    rw [find?_cons_of_neg (by simp [Environment.fails, interface])] at first
    cases workqueue : env.memory .workqueue with
    | false =>
      rw [find?_cons_of_pos (by simp [Environment.fails, workqueue])] at first
      obtain rfl := Option.some.inj first
      exact iff_of_true (leavesNothing_workqueue interface workqueue) (by decide)
    | true =>
      rw [find?_cons_of_neg (by simp [Environment.fails, workqueue])] at first
      cases task : env.memory .task with
      | false =>
        rw [find?_cons_of_pos (by simp [Environment.fails, task])] at first
        obtain rfl := Option.some.inj first
        exact iff_of_true (leavesNothing_task interface workqueue task) (by decide)
      | true =>
        rw [find?_cons_of_neg (by simp [Environment.fails, task])] at first
        have later : ∀ other ∈ steps.drop 3, other ∉ handled := by decide
        refine iff_of_false ?_ (later step (mem_of_find?_eq_some first))
        intro nothing
        cases leaves_hotPlug interface workqueue task (start cportMap) with
        | inl fault =>
          rw [nothing.noFault] at fault
          cases fault
        | inr name =>
          unfold Lives at name
          rw [nothing.live] at name
          cases name

/-- Everything works but the allocation of the work queue's task. -/
def noTask : Environment :=
  ⟨fun object => object ≠ .task, 4, 0, 0, 0, 40, 0, ⟨0, [], 0, false⟩⟩

theorem failed_hotplug_leaves_nothing_iff_task :
    LeavesNothing [0] (runFrom (hotPlug noTask) (start [0])) :=
  (failed_hotplug_leaves_nothing_iff noTask [0] (.alloc .task) (by decide)).mpr (by decide)

/-- Everything works but the request for the route. -/
def noRoute : Environment := ⟨fun _ => true, 4, 0, - EIO, 0, 40, 0, ⟨0, [], 0, false⟩⟩

/-- Everything works but the allocation of the control device. -/
def noControlDevice : Environment :=
  ⟨fun object => object ≠ .controlDevice, 4, 0, 0, 0, 40, 0, ⟨0, [], 0, false⟩⟩

/-- All CPorts are in use. -/
def noCport : Environment := ⟨fun _ => true, 1, 0, 0, 0, 40, 0, ⟨0, [], 0, false⟩⟩

/-- After a route that fails, the task of the work queue destroys itself in the middle of the release. Without a control
device no error is returned at all, and without a CPort the work queue and its task stay. -/
theorem gb_interface_init_failure_leaks :
    runFrom (hotPlug noRoute) (start [0]) =
        (.ok (), ⟨[.work, .bundlesTable, .bundles, .name, .workqueue, .interface], [.task, .fd, .fdTable, .stack], [0],
          true⟩) ∧
      runFrom (hotPlug noControlDevice) (start [0]) =
        (.ok (), ⟨[.bundlesTable, .bundles, .stack, .name, .fdTable, .fd, .task, .workqueue, .interface], [.work], [0, 1],
          false⟩) ∧
      runFrom (hotPlug noCport) (start [0]) =
        (.ok (), ⟨[.stack, .name, .fdTable, .fd, .task, .workqueue], [.interface], [0], true⟩) ∧
      ¬ LeavesNothing [0] (runFrom (hotPlug noRoute) (start [0])) := by
  have route : runFrom (hotPlug noRoute) (start [0]) =
      (.ok (), ⟨[.work, .bundlesTable, .bundles, .name, .workqueue, .interface], [.task, .fd, .fdTable, .stack], [0],
        true⟩) := by
    rfl
  refine ⟨route, by rfl, by rfl, ?_⟩
  intro nothing
  have live := nothing.live
  rw [route] at live
  cases live

end Phabos.Hotplug
