/-
The registration of a driver on a cport: `gb_register_driver` of drivers/greybus/greybus-core.c.
-/

import Phabos.Construction.Greybus.Request

namespace Phabos.Greybus.Registration
open Function

def ENOMEM : Int := 12

def EEXIST : Int := 17

/-- What the library says about `qsort`: the elements stay the same, and no later one compares below an earlier one. -/
structure Qsort {α : Type} (compare : α → α → Int) where
  sort : List α → List α
  perm : ∀ elements, (sort elements).Perm elements
  sorted : ∀ elements, (sort elements).Pairwise fun first second => compare first second ≤ 0

def gbCompareHandlers (handler1 handler2 : GbOperationHandler) : Int := handler1.type.toNat - handler2.type.toNat

structure GbDriver where
  hasInit : Bool
  hasExit : Bool
  opHandlers : Option (List GbOperationHandler)
  opHandlersCount : ℕ

structure GbCport where
  id : BitVec 32
  driver : ℕ
  rxFifo : List ℕ
  rxFifoSemaphore : ℕ
  txFifo : List ℕ
  thread : Option ℕ

inductive DriverCall where
  | init (driver : ℕ) (cportid : BitVec 32)
  | exit (driver : ℕ) (cportid : BitVec 32)
  deriving DecidableEq

/-- The bus, the driver objects, the calls into drivers so far and the tasks that run `gb_pending_message_worker`. -/
structure Bus where
  cportMap : BitVec 32 → Option GbCport
  driver : ℕ → GbDriver
  calls : List DriverCall
  workers : List ℕ

/-- The value of `retval` before it is written, what the `init` of the driver returns, whether `kzalloc` has memory
and the task that `task_run` returns. -/
structure Outcomes where
  retval : Int
  init : Int
  kzalloc : Bool
  taskRun : Option ℕ

/-- `kzalloc` clears the cport. -/
def GbCport.zero : GbCport := ⟨0, 0, [], 0, [], none⟩

def gbInitCport (cport : GbCport) : GbCport := { cport with rxFifoSemaphore := 0, rxFifo := [], txFifo := [] }

/-- `qsort` gets the handlers that the driver counts. -/
def GbDriver.sortHandlers (driver : GbDriver) (qsort : Qsort gbCompareHandlers) : GbDriver :=
  { driver with
    opHandlers := driver.opHandlers.map fun handlers =>
      qsort.sort (handlers.take driver.opHandlersCount) ++ handlers.drop driver.opHandlersCount }

def Bus.call (greybus : Bus) (call : DriverCall) : Bus := { greybus with calls := greybus.calls ++ [call] }

def Bus.sortHandlers (greybus : Bus) (qsort : Qsort gbCompareHandlers) (driver : ℕ) : Bus :=
  { greybus with driver := update greybus.driver driver ((greybus.driver driver).sortHandlers qsort) }

/-- The function from the allocation of the cport on. -/
def addCport (outcomes : Outcomes) (greybus : Bus) (cportid : BitVec 32) (driver : ℕ) (retval : Int) :
    Int × Bus :=
  if outcomes.kzalloc then
    let cport := { gbInitCport .zero with id := cportid, driver := driver, thread := outcomes.taskRun }
    match outcomes.taskRun with
    | none => (retval, if (greybus.driver driver).hasExit then greybus.call (.exit driver cportid) else greybus)
    | some task =>
      (0, { greybus with
        cportMap := update greybus.cportMap cportid (some cport)
        workers := task :: greybus.workers })
  else (- ENOMEM, greybus)

def gbRegisterDriver (qsort : Qsort gbCompareHandlers) (outcomes : Outcomes) (greybus : Bus)
    (cportid : BitVec 32) (driver : Option ℕ) : Int × Bus :=
  match driver with
  | none => (- EINVAL, greybus)
  | some driver =>
    if (greybus.cportMap cportid).isSome then (- EEXIST, greybus)
    else if (greybus.driver driver).opHandlers.isNone ∧ 0 < (greybus.driver driver).opHandlersCount then
      (- EINVAL, greybus)
    else if (greybus.driver driver).hasInit then
      let greybus := greybus.call (.init driver cportid)
      if outcomes.init ≠ 0 then (outcomes.init, greybus)
      else addCport outcomes (greybus.sortHandlers qsort driver) cportid driver outcomes.init
    else addCport outcomes (greybus.sortHandlers qsort driver) cportid driver outcomes.retval

end Phabos.Greybus.Registration
