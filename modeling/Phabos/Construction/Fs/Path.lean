import Phabos.Library.Components

/-
This file embeds the path functions of lib/string.c, the walk and the calls that make nodes in fs/fs.c, and the
directories of fs/ramfs.c. A path is a string without its final zero byte.
-/

namespace Phabos.Fs
open Library

def slash : UInt8 := 47

def dot : UInt8 := 46

inductive Errno where
  | ENOENT
  | EINVAL
  | EEXIST
  | ENOMEM
  | EPERM
  | ENOTDIR
  | EBUSY
  deriving DecidableEq, Repr

def S_IFMT : ℕ := 0o170000

def S_IFDIR : ℕ := 0o040000

def S_IFCHR : ℕ := 0o020000

def S_IFBLK : ℕ := 0o060000

def S_IFREG : ℕ := 0o100000

def O_CREAT : ℕ := 0x0200

def O_EXCL : ℕ := 0x0800

structure Inode where
  flags : ℕ
  dev : ℕ

/-- The inodes of a mounted tree. A directory's table of files has no removals, so that it is a map. -/
structure Tree where
  inode : ℕ → Inode
  files : ℕ → List UInt8 → Option ℕ
  mountedInode : ℕ → Bool
  root : ℕ
  next : ℕ

/-- The tree after `sys_mount` of a ramfs on the root. -/
def mounted : Tree := ⟨fun _ => ⟨S_IFDIR, 0⟩, fun _ _ => none, (· = 0), 0, 1⟩

def Tree.isDirectory (s : Tree) (i : ℕ) : Bool := (s.inode i).flags &&& S_IFDIR != 0

def Tree.isCharDevice (s : Tree) (i : ℕ) : Bool := (s.inode i).flags &&& S_IFCHR != 0

/-- The loops of `adirname` and `abasename` from the end run over the reversed path. -/
def adirname (path : List UInt8) : Option (List UInt8) :=
  if path = [] then none
  else
    let name := path.reverse.dropWhile (· = slash)
    let dir := name.dropWhile (· ≠ slash)
    if name = [] then some [slash]
    else if dir = [] then some [dot]
    else if dir.length = 1 then some [slash]
    else some (path.take (dir.length - 1))

def abasename (path : List UInt8) : Option (List UInt8) :=
  if path = [] then none
  else
    let name := path.reverse.dropWhile (· = slash)
    if name = [] then some [slash] else some (name.takeWhile (· ≠ slash)).reverse

def ramfsLookup (s : Tree) (cwd : ℕ) (name : List UInt8) : Option ℕ := s.files cwd name

/-- A call of `_fs_walk` gets a shorter path than its caller. A last component goes to the lookup as it stands. -/
def fsWalkFrom (s : Tree) : ℕ → Option ℕ → List UInt8 → Option ℕ
  | 0, _, _ => none
  | _ + 1, none, _ => none
  | fuel + 1, some cwd, pathname =>
    if !s.isDirectory cwd then none
    else
      let path := pathname.dropWhile (· = slash)
      let cwd := if path.length < pathname.length then s.root else cwd
      if path = [] then some cwd
      else
        let name := path.takeWhile (· ≠ slash)
        let next := (path.dropWhile (· ≠ slash)).dropWhile (· = slash)
        if next = [] then ramfsLookup s cwd path
        else fsWalkFrom s fuel (ramfsLookup s cwd name) next

def fsWalk (s : Tree) (cwd : ℕ) (pathname : List UInt8) : Option ℕ :=
  fsWalkFrom s (pathname.length + 1) (some cwd) pathname

/-- `ramfs_create_inode` and `hashtable_add`: the new inode is the next one. -/
def Tree.create (s : Tree) (cwd : ℕ) (name : List UInt8) (inode : Inode) : Tree where
  inode := Function.update s.inode s.next inode
  files := Function.update (Function.update s.files s.next fun _ => none) cwd
    (Function.update (s.files cwd) name (some s.next))
  mountedInode := Function.update s.mountedInode s.next false
  root := s.root
  next := s.next + 1

def ramfsMkdir (s : Tree) (cwd : ℕ) (name : List UInt8) : Except Errno Tree :=
  if !s.isDirectory cwd then .error .EINVAL
  else if (s.files cwd name).isSome then .error .EEXIST
  else .ok (s.create cwd name ⟨S_IFDIR, 0⟩)

def ramfsMknod (s : Tree) (cwd : ℕ) (name : List UInt8) (mode dev : ℕ) : Except Errno Tree :=
  if !s.isDirectory cwd then .error .EINVAL
  else if (s.files cwd name).isSome then .error .EEXIST
  else if mode &&& S_IFMT = S_IFREG then .ok (s.create cwd name ⟨S_IFREG, 0⟩)
  else if mode &&& S_IFMT = S_IFCHR then .ok (s.create cwd name ⟨S_IFCHR, dev⟩)
  else if mode &&& S_IFMT = S_IFBLK then .ok (s.create cwd name ⟨S_IFBLK, 0⟩)
  else .error .EINVAL

/-- A walk without a path finds no inode. -/
def sysMkdir (s : Tree) (pathname : List UInt8) : Except Errno Tree :=
  match adirname pathname, abasename pathname with
  | some path, some name =>
    match fsWalk s s.root path with
    | none => .error .ENOENT
    | some inode =>
      if (ramfsLookup s inode name).isSome then .error .EEXIST else ramfsMkdir s inode name
  | _, _ => .error .ENOENT

def sysMknod (s : Tree) (pathname : List UInt8) (mode dev : ℕ) : Except Errno Tree :=
  match abasename pathname, adirname pathname with
  | some name, some path =>
    match fsWalk s s.root path with
    | none => .error .ENOENT
    | some inode => ramfsMknod s inode name mode dev
  | _, _ => .error .ENOMEM

/-- `sys_open` from `allocate_fdnum` on, with the number that it gets and the answer of a device -/
def openInode (s : Tree) (inode : ℕ) (fdnum : Except Errno ℕ) (deviceOpen : ℕ → Option Errno) : Except Errno ℕ :=
  fdnum.bind fun _ =>
    if s.isCharDevice inode then
      match deviceOpen (s.inode inode).dev with
      | some error => .error error
      | none => .ok inode
    else .ok inode

/-- The result is the inode of the open file. -/
def sysOpen (s : Tree) (pathname : List UInt8) (flags mode : ℕ) (fdnum : Except Errno ℕ)
    (deviceOpen : ℕ → Option Errno) : Tree × Except Errno ℕ :=
  let found := fsWalk s s.root pathname
  if found.isSome ∧ flags &&& O_CREAT ≠ 0 ∧ flags &&& O_EXCL ≠ 0 then (s, .error .EEXIST)
  else
    let created :=
      if found = none ∧ flags &&& O_CREAT ≠ 0 then sysMknod s pathname ((mode &&& S_IFMT) ||| S_IFREG) 0 else .ok s
    match created with
    | .error error => (s, .error error)
    | .ok s =>
      match fsWalk s s.root pathname with
      | none => (s, .error .ENOMEM)
      | some inode => (s, openInode s inode fdnum deviceOpen)

/-- A mount of another ramfs: the directory keeps its place and gets an empty table of files. -/
def sysMount (s : Tree) (target : List UInt8) : Except Errno Tree :=
  match fsWalk s s.root target with
  | none => .error .ENOTDIR
  | some cwd =>
    if !s.isDirectory cwd then .error .ENOTDIR
    else if s.mountedInode cwd then .error .EBUSY
    else
      .ok { s with
        inode := Function.update s.inode cwd ⟨S_IFDIR, 0⟩
        files := Function.update s.files cwd fun _ => none
        mountedInode := Function.update s.mountedInode cwd true }

inductive Call where
  | sysMount (target : List UInt8)
  | sysMkdir (pathname : List UInt8)
  | sysMknod (pathname : List UInt8) (mode dev : ℕ)
  | sysOpen (pathname : List UInt8) (flags mode : ℕ) (fdnum : Except Errno ℕ) (deviceOpen : ℕ → Option Errno)

/-- The tree after a call, successful or not. -/
def Tree.apply (s : Tree) : Call → Tree
  | .sysMount target => (sysMount s target).toOption.getD s
  | .sysMkdir pathname => (sysMkdir s pathname).toOption.getD s
  | .sysMknod pathname mode dev => (sysMknod s pathname mode dev).toOption.getD s
  | .sysOpen pathname flags mode fdnum deviceOpen => (sysOpen s pathname flags mode fdnum deviceOpen).1

end Phabos.Fs
