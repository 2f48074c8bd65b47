import Phabos.Construction.Fs.Path
import Phabos.Construction.Lib.Hashtable

/-
This file embeds `sys_open` and `sys_close` of fs/fs.c with the descriptors of fs/fd.c, for one task, with all the
allocations that can fail. An allocation that is asked of the memory succeeds as the call's record of it says.
-/

namespace Phabos.OpenFile
open Fs

def TASK_FD_MAX : ℕ := 20

def O_CLOEXEC : BitVec 32 := 0x80000

def EBADF : Int := 9

def value : Errno → Int
  | .EPERM => 1
  | .ENOENT => 2
  | .ENOMEM => 12
  | .EBUSY => 16
  | .EEXIST => 17
  | .ENOTDIR => 20
  | .EINVAL => 22

structure File where
  inode : ℕ
  flags : BitVec 32
  offset : Int

/-- `struct fd`, whose file can be a null pointer -/
structure Descriptor where
  flags : BitVec 32
  file : Option File

/-- The table of the running task gives the address of a descriptor for a number. A dlock is the count of its
semaphore. -/
structure State where
  tree : Tree
  dlock : ℕ → ℕ
  fd : Hashtable (BitVec 32) ℕ
  descriptor : ℕ → Descriptor
  next : ℕ

/-- The result of a device's open, if it has one -/
structure Device where
  openResult : Option Int

/-- The allocations of a call, in their order. `growDirectory` and `growTable` are those of `hashtable_resize`, if the
table has to grow. -/
structure Memory where
  firstWalk : Bool
  abasename : Bool
  adirname : Bool
  mknodWalk : Bool
  inode : Bool
  name : Bool
  growDirectory : Bool
  secondWalk : Bool
  fd : Bool
  growTable : Bool
  file : Bool

/-- A call reads a null pointer, or it goes on for ever. -/
inductive Stop where
  | fault
  | hangs
  deriving DecidableEq

/-- `devices` is what `devnum_get_device` finds. `wakes` is the count of each dlock when a call that has slept in
`mutex_lock` gets on, if it ever does. -/
structure Call where
  pathname : Option (List UInt8)
  flags : BitVec 32
  mode : ℕ
  memory : Memory
  devices : ℕ → Option Device
  wakes : Option (ℕ → ℕ)

/-- `fs_walk` finds nothing when it has no copy of its path. -/
def walk (copied : Bool) (s : Tree) (pathname : List UInt8) : Option ℕ :=
  if copied then fsWalk s s.root pathname else none

/-- `ramfs_mknod` with its allocations -/
def ramfsMknodWith (memory : Memory) (s : Tree) (cwd : ℕ) (name : List UInt8) (mode dev : ℕ) :
    Except Stop (Except Errno Tree) :=
  if !s.isDirectory cwd then .ok (.error .EINVAL)
  else if (s.files cwd name).isSome then .ok (.error .EEXIST)
  else if !memory.inode || !memory.name then .ok (.error .ENOMEM)
  else
    match ramfsMknod s cwd name mode dev with
    | .error error => .ok (.error error)
    | .ok s => if memory.growDirectory then .ok (.ok s) else .error .fault

/-- `abasename` with its allocation. A path of slashes is copied by `astrcpy`, which writes through what `kmalloc` returns. -/
def abasenameWith (copied : Bool) (path : List UInt8) : Except Stop (Option (List UInt8)) :=
  if copied ∨ path = [] then .ok (abasename path)
  else if path.reverse.dropWhile (· = slash) = [] then .error .fault
  else .ok none

/-- `adirname` with its allocation. `astrcpy` makes the copies that do not depend on the path. -/
def adirnameWith (copied : Bool) (path : List UInt8) : Except Stop (Option (List UInt8)) :=
  let dir := (path.reverse.dropWhile (· = slash)).dropWhile (· ≠ slash)
  if copied ∨ path = [] then .ok (adirname path)
  -- Without a component there is no directory before it either.
  else if dir.length ≤ 1 then .error .fault
  else .ok none

/-- `sys_mknod` with its allocations -/
def sysMknodWith (memory : Memory) (s : Tree) (pathname : List UInt8) (mode dev : ℕ) : Except Stop (Except Errno Tree) :=
  (abasenameWith memory.abasename pathname).bind fun
    | none => .ok (.error .ENOMEM)
    | some name =>
      (adirnameWith memory.adirname pathname).bind fun
        | none => .ok (.error .ENOMEM)
        | some path =>
          match walk memory.mknodWalk s path with
          | none => .ok (.error .ENOENT)
          | some inode => ramfsMknodWith memory s inode name mode dev

/-- `sys_open` up to `allocate_fdnum`. `inode_init` frees the dlock of a new inode. -/
def openPath (s : State) (call : Call) : Except Stop (State × Except Errno ℕ) :=
  match call.pathname with
  | none => .ok (s, .error .EINVAL)
  | some pathname =>
    let creat := call.flags &&& BitVec.ofNat 32 O_CREAT ≠ 0
    let found := walk call.memory.firstWalk s.tree pathname
    if found.isSome ∧ creat ∧ call.flags &&& BitVec.ofNat 32 O_EXCL ≠ 0 then .ok (s, .error .EEXIST)
    else
      let created : Except Stop (Except Errno State) :=
        if found = none ∧ creat then
          (sysMknodWith call.memory s.tree pathname ((call.mode &&& S_IFMT) ||| S_IFREG) 0).map fun made =>
            made.map fun tree => { s with tree := tree, dlock := Function.update s.dlock s.tree.next 1 }
        else .ok (.ok s)
      created.map fun
        | .error error => (s, .error error)
        | .ok s =>
          match walk call.memory.secondWalk s.tree pathname with
          | none => (s, .error .ENOMEM)
          | some inode => (s, .ok inode)

/-- The search of `allocate_fdnum` among the numbers that are left. -/
def freeNumber (ht : Hashtable (BitVec 32) ℕ) : ℕ → ℕ → Except Stop (Option ℕ)
  | 0, _ => .ok none
  | left + 1, i =>
    match ht.get (BitVec.ofNat 32 i) with
    | none => .error .hangs
    | some fd => if fd ≠ 0 then freeNumber ht left (i + 1) else .ok (some i)

/-- `hashtable_add`, whose growth fails without memory -/
def addWith (memory : Bool) (ht : Hashtable (BitVec 32) ℕ) (key : BitVec 32) (value : ℕ) :
    Except Stop (Hashtable (BitVec 32) ℕ) :=
  match ht.findSlot key with
  | none => .error .hangs
  | some node =>
    let stored := ht.store node key value
    if stored.size / 2 ≤ stored.count ∧ memory = false then .error .fault
    else
      match ht.add key value with
      | none => .error .hangs
      | some ht => .ok ht

def allocateFdnum (s : State) (memory : Memory) : Except Stop (State × Int) :=
  (freeNumber s.fd TASK_FD_MAX 0).bind fun
    | none => .ok (s, -1)
    | some i =>
      if !memory.fd then .ok (s, -value .ENOMEM)
      else
        (addWith memory.growTable s.fd (BitVec.ofNat 32 i) s.next).map fun ht =>
          ({ s with fd := ht, descriptor := Function.update s.descriptor s.next ⟨0, none⟩, next := s.next + 1 }, i)

def toFd (s : State) (fdnum : Int) : Except Stop ℕ :=
  if fdnum < 0 then .ok 0
  else
    match s.fd.get (BitVec.ofInt 32 fdnum) with
    | none => .error .hangs
    | some fd => .ok fd

/-- `free_fdnum` reads the inode of the file of the descriptor. -/
def freeFdnum (s : State) (fdnum : Int) : Except Stop (State × Int) :=
  match s.fd.get (BitVec.ofInt 32 fdnum) with
  | none => .error .hangs
  | some fd =>
    if fd = 0 then .ok (s, -EBADF)
    else
      match (s.descriptor fd).file with
      | none => .error .fault
      | some file =>
        let dlock := if s.tree.isDirectory file.inode then
            Function.update s.dlock file.inode (s.dlock file.inode + 1)
          else s.dlock
        match s.fd.remove (BitVec.ofInt 32 fdnum) with
        | none => .error .hangs
        | some ht => .ok ({ s with fd := ht, dlock := dlock }, 0)

/-- `mutex_lock` of the dlock of an inode: a count that is not positive puts the task to sleep. -/
def mutexLock (s : State) (inode : ℕ) (wakes : Option (ℕ → ℕ)) : Except Stop State :=
  if 0 < s.dlock inode then .ok { s with dlock := Function.update s.dlock inode (s.dlock inode - 1) }
  else
    match wakes with
    | none => .error .hangs
    | some counts =>
      if 0 < counts inode then .ok { s with dlock := Function.update counts inode (counts inode - 1) }
      else .error .hangs

/-- `sys_open` from `mutex_lock` on, with a complete descriptor -/
def openDevice (s : State) (inode : ℕ) (fdnum : Int) (call : Call) : Except Stop (State × Int) :=
  (if s.tree.isDirectory inode then mutexLock s inode call.wakes else .ok s).bind fun s =>
    if s.tree.isCharDevice inode then
      match call.devices (s.tree.inode inode).dev with
      | none => .error .fault
      | some dev =>
        match dev.openResult with
        | none => .ok (s, fdnum)
        | some retval =>
          if retval ≠ 0 then (freeFdnum s fdnum).map fun (s, _) => (s, retval) else .ok (s, fdnum)
    else .ok (s, fdnum)

/-- `sys_open` from `allocate_fdnum` on -/
def openInode (s : State) (inode : ℕ) (call : Call) : Except Stop (State × Int) :=
  (allocateFdnum s call.memory).bind fun (s, fdnum) =>
    if fdnum < 0 then .ok (s, fdnum)
    else
      (toFd s fdnum).bind fun fd =>
        let flags := if call.flags &&& O_CLOEXEC ≠ 0 then (s.descriptor fd).flags ||| O_CLOEXEC
          else (s.descriptor fd).flags
        if !call.memory.file then
          let s := { s with descriptor := Function.update s.descriptor fd ⟨flags, none⟩ }
          (freeFdnum s fdnum).map fun (s, _) => (s, -value .ENOMEM)
        else
          let s := { s with
            descriptor := Function.update s.descriptor fd ⟨flags, some ⟨inode, call.flags &&& ~~~O_CLOEXEC, 0⟩⟩ }
          openDevice s inode fdnum call

def sysOpen (s : State) (call : Call) : Except Stop (State × Int) :=
  (openPath s call).bind fun
    | (s, .error error) => .ok (s, -value error)
    | (s, .ok inode) => openInode s inode call

/-- `sys_close` ignores the result of a device's close. -/
def sysClose (s : State) (fdnum : Int) (devices : ℕ → Option Device) : Except Stop (State × Int) :=
  (toFd s fdnum).bind fun fd =>
    if fd = 0 then .ok (s, -EBADF)
    else
      match (s.descriptor fd).file with
      | none => .error .fault
      | some file =>
        if s.tree.isCharDevice file.inode ∧ (devices (s.tree.inode file.inode).dev).isNone then .error .fault
        else freeFdnum s fdnum

end Phabos.OpenFile
