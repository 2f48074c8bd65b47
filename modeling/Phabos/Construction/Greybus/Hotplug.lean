import Mathlib.Data.List.Nodup

/-
This file embeds a hot-plug through drivers/greybus/ap/svc.c and drivers/greybus/ap/interface.c, with the parts of
workqueue.c, task.c and hashtable.c that take and release its resources. The SVC's task creates the interface, and the
task of the interface's work queue initialises it.
-/

namespace Phabos.Hotplug

def EIO : Int := 5

def ENOMEM : Int := 12

def EBUSY : Int := 16

def gbOpSuccess : Nat := 0x00

def gbOpNoMemory : Nat := 0x03

/-- What the hot-plug of an interface allocates. A hash table is its structure and its table. -/
inductive Object
  | interface
  | workqueue
  | task
  | fd
  | fdTable
  | name
  | stack
  | bundles
  | bundlesTable
  | work
  | controlDevice
  | manifest
  | bundle (index : Nat)
  | bundleCports (index : Nat)
  | bundleCportsTable (index : Nat)
  | cport (bundle index : Nat)
  /-- a cport that `manifest_parse` has created and replaced by another one -/
  | lostCport (index : Nat)
  deriving DecidableEq, Repr

/-- What `manifest_parse` does: its return code, the bundles that it creates, with the number of cports of each whose
hash table was allocated, and the cports that it replaces -/
structure Parse where
  retval : Int
  bundles : List (Option Nat)
  lost : Nat
  /-- The manifest has a descriptor for which it uses `iface->bundles`. -/
  usesBundles : Bool

/-- What happens around the hot-plug: which allocations succeed, and the results of the requests to the SVC and to the
interface -/
structure Environment where
  memory : Object → Bool
  cportCount : Nat
  assignDeviceId : Int
  createRoute : Int
  createConnection : Int
  manifestSize : Int
  manifestData : Int
  manifestParse : Parse

/-- The objects of the hot-plug that are allocated, those that were freed, the keys of `cport_map`, and whether an
error was returned -/
structure System where
  live : List Object
  freed : List Object
  cportMap : List Nat
  reported : Bool
  deriving DecidableEq, Repr

/-- How code ends other than by a return -/
inductive Ending
  /-- `NULL` is dereferenced, or an object is freed that is not allocated. -/
  | fault
  /-- `task_exit` does not return. -/
  | exited
  deriving DecidableEq, Repr

abbrev Code := ExceptT Ending (StateM System)

/-- `kzalloc`, `zalloc`, `kmalloc` and `page_alloc` -/
def alloc (env : Environment) (object : Object) : Code Bool := do
  if env.memory object then
    modify fun s => { s with live := object :: s.live }
    return true
  else
    return false

/-- `kfree` and `page_free` -/
def free (object : Object) : Code Unit := do
  if object ∈ (← get).live then
    modify fun s => { s with live := s.live.erase object, freed := object :: s.freed }
  else
    throw .fault

def hashtableCreate (env : Environment) (ht table : Object) : Code Bool := do
  if ← alloc env ht then
    if ← alloc env table then
      return true
    else
      free ht
      return false
  else
    return false

/-- `hashtable_destroy`, which does not test for `NULL` -/
def hashtableDestroy (there : Bool) (ht table : Object) : Code Unit := do
  if there then
    free table
    free ht
  else
    throw .fault

/-- `task_create`, and whether the task has a table of files. `astrcpy` copies to what `kmalloc` returns. -/
def taskCreate (env : Environment) : Code (Option Bool) := do
  if ← alloc env .task then
    let fd ← hashtableCreate env .fd .fdTable
    if ← alloc env .name then
      return some fd
    else
      throw .fault
  else
    return none

/-- `task_run`. Without pages `page_alloc` returns no null pointer but one to the last bytes of the memory, and
`task_init_registers` writes behind it, where the addresses wrap around. -/
def taskRun (env : Environment) : Code (Option Bool) := do
  match ← taskCreate env with
  | none => return none
  | some fd =>
    if ← alloc env .stack then
      return some fd
    else
      throw .fault

def taskDestroy (fd : Bool) : Code Unit := do
  free .stack
  hashtableDestroy fd .fd .fdTable
  free .task

/-- `task_annihilate`. `own` says that the task annihilates itself. -/
def taskAnnihilate (own fd : Bool) : Code Unit := do
  if own then
    throw .exited
  else
    taskDestroy fd

def workqueueCreate (env : Environment) : Code (Option Bool) := do
  if ← alloc env .workqueue then
    match ← taskRun env with
    | none =>
      free .workqueue
      return none
    | some fd => return some fd
  else
    return none

/-- `workqueue_destroy`. The only work is the one that is being run, which is not on the list. -/
def workqueueDestroy (own fd : Bool) : Code Unit := do
  taskAnnihilate own fd
  free .workqueue

def gbCportAllocate (env : Environment) : Code Int := do
  let s ← get
  match (List.range env.cportCount).find? (· ∉ s.cportMap) with
  | some cport =>
    modify fun s => { s with cportMap := s.cportMap ++ [cport] }
    return cport
  | none => return -EBUSY

def gbCportDeallocate (cport : Nat) : Code Unit :=
  modify fun s => { s with cportMap := s.cportMap.erase cport }

/-- `struct gb_interface`. The bundles are there if their hash table was allocated. -/
structure Interface where
  controlCport : Nat
  bundles : Option (List (Option Nat))
  /-- The task of the work queue has a table of files. -/
  fd : Bool
  deriving DecidableEq, Repr

def gbInterfaceCreate (env : Environment) : Code (Option Interface) := do
  if ← alloc env .interface then
    match ← workqueueCreate env with
    | none =>
      free .interface
      return none
    | some fd =>
      let cport ← gbCportAllocate env
      if cport < 0 then
        free .interface
        return none
      else
        let bundles ← hashtableCreate env .bundles .bundlesTable
        return some ⟨cport.toNat, if bundles then some [] else none, fd⟩
  else
    return none

def gbBundleDestroy (index : Nat) (cports : Option Nat) : Code Unit := do
  (List.range (cports.getD 0)).forM fun cport => free (.cport index cport)
  hashtableDestroy cports.isSome (.bundleCports index) (.bundleCportsTable index)
  free (.bundle index)

def gbInterfaceDestroy (own : Bool) (iface : Interface) : Code Unit := do
  (iface.bundles.getD []).zipIdx.forM fun (cports, index) => gbBundleDestroy index cports
  gbCportDeallocate iface.controlCport
  workqueueDestroy own iface.fd
  hashtableDestroy iface.bundles.isSome .bundles .bundlesTable
  free .interface

def gbControlGetManifest (env : Environment) : Code Int := do
  if env.manifestSize < 0 then
    return env.manifestSize
  else if env.manifestSize = 0 then
    return - EIO
  else if ← alloc env .manifest then
    if env.manifestData ≠ 0 then
      free .manifest
      return env.manifestData
    else
      return 0
  else
    return -ENOMEM

/-- The objects of a bundle and its cports -/
def bundleObjects (index : Nat) : Option Nat → List Object
  | none => [.bundle index]
  | some count => .bundle index :: .bundleCports index :: .bundleCportsTable index ::
      (List.range count).map (.cport index)

def Parse.objects (parse : Parse) : List Object :=
  (parse.bundles.zipIdx.flatMap fun (cports, index) => bundleObjects index cports) ++
    (List.range parse.lost).map .lostCport

/-- `manifest_parse` on an interface that has no bundles yet -/
def manifestParse (env : Environment) (iface : Interface) : Code (Int × Interface) := do
  if env.manifestParse.usesBundles then
    if iface.bundles.isSome then
      modify fun s => { s with live := env.manifestParse.objects ++ s.live }
      return (env.manifestParse.retval, { iface with bundles := some env.manifestParse.bundles })
    else
      throw .fault
  else
    return (env.manifestParse.retval, iface)

/-- `gb_interface_init` up to the bundles, whose initialisation has no result -/
def gbInterfaceInit (env : Environment) (iface : Interface) : Code (Int × Interface) := do
  if env.assignDeviceId ≠ 0 then
    return (env.assignDeviceId, iface)
  else if env.createRoute ≠ 0 then
    return (env.createRoute, iface)
  else if env.createConnection ≠ 0 then
    return (env.createConnection, iface)
  else if ← alloc env .controlDevice then
    let retval ← gbControlGetManifest env
    if retval ≠ 0 then
      return (retval, iface)
    else
      manifestParse env iface
  else
    -- `retval` is that of the connection here.
    return (env.createConnection, iface)

/-- `interface_init` -/
def interfaceInit (env : Environment) (own : Bool) (iface : Interface) : Code Unit := do
  let (retval, iface) ← gbInterfaceInit env iface
  if retval ≠ 0 then
    modify fun s => { s with reported := true }
    gbInterfaceDestroy own iface
  else
    return ()

/-- The round of `workqueue_thread` for the work of the hot-plug, on the task of the work queue -/
def workqueueThread (env : Environment) (iface : Interface) : Code Unit := do
  interfaceInit env true iface
  free .work

/-- `gb_svc_intf_hotplug`: its result, and the interface if its work was queued -/
def gbSvcIntfHotplug (env : Environment) : Code (Nat × Option Interface) := do
  match ← gbInterfaceCreate env with
  | none =>
    modify fun s => { s with reported := true }
    return (gbOpNoMemory, none)
  | some iface =>
    -- `workqueue_schedule` has no result.
    if ← alloc env .work then
      return (gbOpSuccess, some iface)
    else
      return (gbOpSuccess, none)

/-- A hot-plug on its two tasks. The scheduler destroys a task that has exited. -/
def hotPlug (env : Environment) : Code Unit := do
  match (← gbSvcIntfHotplug env).2 with
  | none => return ()
  | some iface =>
    tryCatch (workqueueThread env iface) fun
      | .exited => taskDestroy iface.fd
      | .fault => throw .fault

/-- The steps of a hot-plug that can fail -/
inductive Step
  | alloc (object : Object)
  | controlCport
  | deviceId
  | route
  | connection
  | manifestSize
  | manifestData
  | manifestParse
  deriving DecidableEq, Repr

/-- The steps in their order -/
def steps : List Step :=
  [.alloc .interface, .alloc .workqueue, .alloc .task, .alloc .fd, .alloc .fdTable, .alloc .name, .alloc .stack,
    .controlCport, .alloc .bundles, .alloc .bundlesTable, .alloc .work, .deviceId, .route, .connection,
    .alloc .controlDevice, .manifestSize, .alloc .manifest, .manifestData, .manifestParse]

/-- Whether a step fails -/
def Environment.fails (env : Environment) (cportMap : List Nat) : Step → Bool
  | .alloc object => !env.memory object
  | .controlCport => (List.range env.cportCount).all (· ∈ cportMap)
  | .deviceId => env.assignDeviceId ≠ 0
  | .route => env.createRoute ≠ 0
  | .connection => env.createConnection ≠ 0
  | .manifestSize => env.manifestSize ≤ 0
  | .manifestData => env.manifestData ≠ 0
  | .manifestParse => env.manifestParse.retval ≠ 0

def start (cportMap : List Nat) : System := ⟨[], [], cportMap, false⟩

/-- The code came to its end, an error was returned, everything was released, each object once, and `cport_map` is as
before. -/
structure LeavesNothing (cportMap : List Nat) (ended : Except Ending Unit × System) : Prop where
  noFault : ended.1 = .ok ()
  reported : ended.2.reported = true
  live : ended.2.live = []
  freed : ended.2.freed.Nodup
  cportMap : ended.2.cportMap = cportMap

end Phabos.Hotplug
