import Mathlib.Data.Finset.Basic
import Phabos.Construction.Lib.Hashtable

/-
This file embeds the pool of CPorts of the AP in drivers/greybus/ap/cport.c, and `gb_cport_connect`, which takes a CPort
from it for a connection.
-/

namespace Phabos.CportPool

def ENOMEM : Int := 12

def EBUSY : Int := 16

def ENOTSUP : Int := 134

/-- `sizeof(struct hashtable_node)` -/
def nodeSize : ℕ := 12

/-- The bytes that a `size_t` can count -/
def addressSpace : ℕ := 0x100000000

/-- A block of the heap: the table of a hash table with so many nodes, the device of a CPort, or something else -/
inductive Block
  | table (nodes : ℕ)
  | device (cport : ℕ)
  | other (name : ℕ)
  deriving DecidableEq, Repr

/-- `cport_map` and the heap. `held` keeps the ids that were allocated and not deallocated since. -/
structure System where
  cportMap : Hashtable (BitVec 32) (BitVec 32)
  heap : List Block
  held : Finset ℕ

/-- How a call ends other than by a return -/
inductive Ending
  /-- A probe of the table goes round and round. -/
  | endless
  /-- `hashtable_resize` writes to a table that it did not get, or `kfree` is given what is not allocated. -/
  | fault
  deriving DecidableEq, Repr

abbrev Code := ExceptT Ending (StateM System)

/-- `gb_cport_init`, on a heap with some blocks -/
def gbCportInit (blocks : List Block) : System :=
  ⟨.create uintKeys, .table Hashtable.minSize :: blocks, ∅⟩

/-- `kfree` -/
def free (block : Block) : Code Unit := do
  if block ∈ (← get).heap then modify fun s => { s with heap := s.heap.erase block }
  else throw .fault

def hashtableHas (key : BitVec 32) : Code Bool := do
  match (← get).cportMap.has key with
  | none => throw .endless
  | some found => return found

/-- `hashtable_add`. A table that grows replaces the old one; `memory` tells for which numbers of nodes there is
memory. -/
def hashtableAdd (memory : ℕ → Bool) (key value : BitVec 32) : Code Unit := do
  let s ← get
  match s.cportMap.add key value with
  | none => throw .endless
  | some next =>
    if next.size = s.cportMap.size then set { s with cportMap := next }
    else if next.size * nodeSize < addressSpace ∧ memory next.size then
      set { s with cportMap := next, heap := .table next.size :: s.heap }
      free (.table s.cportMap.size)
    else throw .fault

def hashtableRemove (key : BitVec 32) : Code Unit := do
  let s ← get
  match s.cportMap.remove key with
  | none => throw .endless
  | some next => set { s with cportMap := next }

/-- The loop of `gb_cport_allocate` from an id on, with so many ids left -/
def allocateFrom (memory : ℕ → Bool) : ℕ → ℕ → Code Int
  | 0, _ => return - EBUSY
  | left + 1, i => do
    if ← hashtableHas (BitVec.ofNat 32 i) then allocateFrom memory left (i + 1)
    else
      hashtableAdd memory (BitVec.ofNat 32 i) 1
      modify fun s => { s with held := insert i s.held }
      return (BitVec.ofNat 32 i).toInt

def gbCportAllocate (cportCount : ℕ) (memory : ℕ → Bool) : Code Int := allocateFrom memory cportCount 0

def gbCportDeallocate (cport : BitVec 32) : Code Unit := do
  if ← hashtableHas cport then hashtableRemove cport
  else pure ()
  modify fun s => { s with held := s.held.erase cport.toNat }

/-- What happens around a call of `gb_cport_connect`: whether the protocol is known, for which tables and whether for the
device there is memory, and the results of the requests to the SVC and to the interface -/
structure Environment where
  protocol : Bool
  tableMemory : ℕ → Bool
  deviceMemory : Bool
  createConnection : Int
  connectCport : Int

/-- `gb_ap_create_device`, and whether it returns a device -/
def gbApCreateDevice (env : Environment) (cport : ℕ) : Code Bool := do
  if env.deviceMemory then
    modify fun s => { s with heap := .device cport :: s.heap }
    return true
  else
    return false

/-- The part of `gb_cport_connect` behind the label `error_create_device` -/
def errorCreateDevice (cportid : BitVec 32) (retval : Int) : Code Int := do
  gbCportDeallocate cportid
  return retval

/-- The part of `gb_cport_connect` behind the label `error_create_connection` -/
def errorCreateConnection (cportid : BitVec 32) (retval : Int) : Code Int := do
  free (.device cportid.toNat)
  errorCreateDevice cportid retval

def gbCportConnect (cportCount : ℕ) (env : Environment) : Code Int := do
  if env.protocol then
    let cportid ← gbCportAllocate cportCount env.tableMemory
    if cportid < 0 then
      return cportid
    else if ← gbApCreateDevice env cportid.toNat then
      if env.createConnection ≠ 0 then
        errorCreateConnection (BitVec.ofInt 32 cportid) env.createConnection
      else if env.connectCport ≠ 0 then
        -- `gb_svc_destroy_connection` is the first step of this exit.
        errorCreateConnection (BitVec.ofInt 32 cportid) env.connectCport
      else
        return 0
    else
      errorCreateDevice (BitVec.ofInt 32 cportid) (- ENOMEM)
  else
    return - ENOTSUP

/-- The calls that use the pool -/
inductive Call
  | allocate (memory : ℕ → Bool)
  | deallocate (cport : BitVec 32)
  | connect (env : Environment)

/-- A call, with 0 for the result of one that has none -/
def Call.code (cportCount : ℕ) : Call → Code Int
  | .allocate memory => gbCportAllocate cportCount memory
  | .deallocate cport => do
    gbCportDeallocate cport
    return 0
  | .connect env => gbCportConnect cportCount env

/-- The state after a call that returns -/
def step (cportCount : ℕ) (s : System) (call : Call) : Option System :=
  match (call.code cportCount).run.run s with
  | (.ok _, next) => some next
  | (.error _, _) => none

end Phabos.CportPool
