import Phabos.Construction.Fs.Path

/-
This file embeds the descriptors of fs/fd.c and the calls of fs/fs.c and kernel/task.c that move the dlock of an
inode. A path is the inode that its walk finds, and a dlock is the count of its semaphore.
-/

namespace Phabos.Fd
open Fs (S_IFDIR S_IFCHR)

def TASK_FD_MAX : ℕ := 20

/-- The fields of an inode that these calls read or write -/
structure Inode where
  flags : ℕ
  dlock : ℕ
  deriving DecidableEq, Repr

def Inode.isDirectory (inode : Inode) : Bool := inode.flags &&& S_IFDIR != 0

def Inode.isCharDevice (inode : Inode) : Bool := inode.flags &&& S_IFCHR != 0

def Inode.mutexUnlock (inode : Inode) : Inode := { inode with dlock := inode.dlock + 1 }

/-- `inode_init` -/
def inodeInit : Inode := ⟨0, 1⟩

/-- Where a task is: in its program, in `sys_open` before it has the dlock, in the `mount` of a file system, or
destroyed. -/
inductive Activity where
  | program
  | opening (fdnum : ℕ)
  | mounting (cwd : ℕ)
  | destroyed
  deriving DecidableEq, Repr

/-- A descriptor is the inode of its file. The copy that a mount keeps of a directory is its mounted inode. -/
structure Machine where
  inode : ℕ → Inode
  mountedInode : ℕ → Option Inode
  fd : ℕ → ℕ → Option ℕ
  activity : ℕ → Activity

/-- All inodes of the tree, those that are made later included, before the first call -/
def Machine.initial (flags : ℕ → ℕ) : Machine :=
  ⟨fun i => ⟨flags i, 1⟩, fun _ => none, fun _ _ => none, fun _ => .program⟩

def allocateFdnum (s : Machine) (task : ℕ) : Option ℕ :=
  (List.range TASK_FD_MAX).find? fun i => (s.fd task i).isNone

def taskFreeFdnum (s : Machine) (task fdnum : ℕ) : Machine :=
  match s.fd task fdnum with
  | none => s
  | some i =>
    { s with
      inode := if (s.inode i).isDirectory then Function.update s.inode i (s.inode i).mutexUnlock else s.inode
      fd := Function.update s.fd task (Function.update (s.fd task) fdnum none) }

/-- The order of the descriptors is the one of their hash table, which makes no difference. -/
def taskDestroy (s : Machine) (task : ℕ) : Machine :=
  (List.range TASK_FD_MAX).foldl (fun s fdnum => taskFreeFdnum s task fdnum) s

/-- `sys_open` up to its `mutex_lock`. Without a free number it fails. -/
def openFile (s : Machine) (task inode : ℕ) : Machine :=
  match allocateFdnum s task with
  | none => s
  | some fdnum =>
    { s with
      fd := Function.update s.fd task (Function.update (s.fd task) fdnum (some inode))
      activity := Function.update s.activity task (.opening fdnum) }

/-- The `mutex_lock` of `sys_open`, which blocks while the count is not positive -/
def lockDirectory (s : Machine) (inode : ℕ) : Option Machine :=
  if (s.inode inode).isDirectory then
    if 0 < (s.inode inode).dlock then
      some { s with
        inode := Function.update s.inode inode { s.inode inode with dlock := (s.inode inode).dlock - 1 } }
    else none
  else some s

/-- `sys_open` from its `mutex_lock` on. A device may refuse the open. -/
def lockFile (s : Machine) (task fdnum : ℕ) (refused : Bool) : Option Machine :=
  (s.fd task fdnum).bind fun inode =>
    (lockDirectory { s with activity := Function.update s.activity task .program } inode).map fun s =>
      if (s.inode inode).isCharDevice && refused then taskFreeFdnum s task fdnum else s

/-- `sys_mount` up to the `mount` of the file system. It fails on no directory and on a mounted one. -/
def mountBegin (s : Machine) (task cwd : ℕ) : Machine :=
  if !(s.inode cwd).isDirectory then s
  else if (s.mountedInode cwd).isSome then s
  else
    { s with
      inode := Function.update s.inode cwd { inodeInit with flags := S_IFDIR }
      mountedInode := Function.update s.mountedInode cwd (some (s.inode cwd))
      activity := Function.update s.activity task (.mounting cwd) }

/-- The error path of `sys_mount`: the directory is what its copy says. -/
def errorMount (s : Machine) (cwd : ℕ) : Machine :=
  match s.mountedInode cwd with
  | none => s
  | some inode =>
    { s with
      inode := Function.update s.inode cwd inode
      mountedInode := Function.update s.mountedInode cwd none }

/-- `sys_mount` from the return of the `mount` of the file system on -/
def mountEnd (s : Machine) (task cwd : ℕ) (failed : Bool) : Machine :=
  let s := { s with activity := Function.update s.activity task .program }
  if failed then errorMount s cwd else s

inductive Step where
  | sysOpen (task inode : ℕ)
  | mutexLock (task : ℕ) (refused : Bool)
  | sysClose (task fdnum : ℕ)
  | sysMount (task target : ℕ)
  | mountReturns (task : ℕ) (failed : Bool)
  | terminate (task : ℕ)

/-- A task calls from its program. Another task or itself destroys it, wherever it is. -/
def step (s : Machine) : Step → Option Machine
  | .sysOpen task inode => if s.activity task = .program then some (openFile s task inode) else none
  | .mutexLock task refused =>
    match s.activity task with
    | .opening fdnum => lockFile s task fdnum refused
    | _ => none
  | .sysClose task fdnum => if s.activity task = .program then some (taskFreeFdnum s task fdnum) else none
  | .sysMount task target => if s.activity task = .program then some (mountBegin s task target) else none
  | .mountReturns task failed =>
    match s.activity task with
    | .mounting cwd => some (mountEnd s task cwd failed)
    | _ => none
  | .terminate task =>
    if s.activity task = .destroyed then none
    else some (taskDestroy { s with activity := Function.update s.activity task .destroyed } task)

end Phabos.Fd
