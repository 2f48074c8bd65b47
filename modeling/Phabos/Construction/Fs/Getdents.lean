import Phabos.Construction.Fs.Path
import Phabos.Construction.Lib.Hashtable
import Phabos.Library.ByteMemory
import Phabos.Library.Segments

/-
This file embeds `ramfs_getdents`, with the calls of fs/ramfs.c that give a directory its entries and the loop of `dev`
in kernel/dev.c that reads a buffer. An address is an offset into the buffer of a call.
-/

namespace Phabos.Fs
open Library ByteMemory

def DT_UNKNOWN : UInt8 := 0

def DT_BLK : UInt8 := 1

def DT_CHR : UInt8 := 2

def DT_DIR : UInt8 := 3

def DT_REG : UInt8 := 6

def Inode.isDirectory (inode : Inode) : Bool := inode.flags &&& S_IFDIR != 0

def Inode.isRegularFile (inode : Inode) : Bool := inode.flags &&& S_IFREG != 0

def Inode.isCharDevice (inode : Inode) : Bool := inode.flags &&& S_IFCHR != 0

/-- The places of the fields of `struct phabos_dirent` -/
def offsetofDOff : ℕ := 4

def offsetofDReclen : ℕ := 8

def offsetofDName : ℕ := 10

def sizeofDirent : ℕ := 12

def sizeofPointer : ℕ := 4

/-- The table of a directory gives the address of an inode for a name. -/
structure Directory where
  files : Hashtable CString ℕ
  inode : ℕ → Inode
  next : ℕ

def Directory.empty : Directory := ⟨.create stringKeys, fun _ => ⟨0, 0⟩, 1⟩

/-- `ramfs_create_inode` and `hashtable_add` -/
def Directory.create (d : Directory) (name : CString) (inode : Inode) : Option Directory :=
  (d.files.add name d.next).map fun files => ⟨files, Function.update d.inode d.next inode, d.next + 1⟩

/-- The calls that make the entries of a directory, or mount a file system on one of them -/
inductive Make where
  | ramfsMkdir (name : CString)
  | ramfsMknod (name : CString) (mode dev : ℕ)
  | sysMount (name : CString)

/-- A call that fails leaves the directory alone. -/
def Directory.make (d : Directory) (call : Make) : Option Directory :=
  match call with
  | .ramfsMkdir name => (d.files.get name).bind fun found =>
    if found ≠ 0 then some d else d.create name ⟨S_IFDIR, 0⟩
  | .ramfsMknod name mode dev => (d.files.get name).bind fun found =>
    if found ≠ 0 then some d
    else if mode &&& S_IFMT = S_IFREG then d.create name ⟨S_IFREG, 0⟩
    else if mode &&& S_IFMT = S_IFCHR then d.create name ⟨S_IFCHR, dev⟩
    else if mode &&& S_IFMT = S_IFBLK then d.create name ⟨S_IFBLK, 0⟩
    else some d
  | .sysMount name => (d.files.get name).map fun found =>
    if found ≠ 0 ∧ (d.inode found).isDirectory then
      { d with inode := Function.update d.inode found ⟨S_IFDIR, 0⟩ }
    else d

/-- The sum is rounded up to the size of a pointer. -/
def direntLength (name : CString) : ℕ :=
  let nameLength := name.bytes.length + 1
  let direntLength := sizeofDirent + nameLength + 2
  (direntLength + (sizeofPointer - 1)) / sizeofPointer * sizeofPointer

def dType (inode : Inode) : UInt8 :=
  if inode.isDirectory then DT_DIR
  else if inode.isRegularFile then DT_REG
  else if inode.isCharDevice then DT_CHR
  else DT_UNKNOWN

/-- What a turn of the loop of `ramfs_getdents` writes. Nothing is written to `d_ino`, and `d_reclen` is an
`unsigned short`. -/
def writeDirent (memory : Memory) (dirp : ℕ) (name : CString) (inode : Inode) (next : ℕ) : Memory :=
  let memory := write memory (dirp + direntLength name - 1) [dType inode]
  let memory := write memory (dirp + offsetofDOff) (le32Bytes (BitVec.ofNat 32 next))
  let memory := write memory (dirp + offsetofDName) (name.bytes ++ [0])
  write memory (dirp + offsetofDReclen) (le16Bytes (direntLength name))

/-- The loop of `ramfs_getdents`, cut off after `fuel` turns: the result, the buffer and the offset of the file. -/
def getdentsLoop (d : Directory) : ℕ → Hashtable.Iterator CString ℕ → Memory → ℕ → ℕ → ℕ → ℕ →
    Option (Except Errno ℕ × Memory × ℕ)
  | 0, _, _, _, _, _, _ => none
  | fuel + 1, iter, memory, dirp, count, nread, offset =>
    match d.files.iterate iter with
    | (false, _) => some (.ok nread, memory, offset)
    | (true, iter) =>
      if count < direntLength iter.key then
        if nread ≠ 0 then some (.ok nread, memory, offset) else some (.error .EINVAL, memory, offset)
      else
        getdentsLoop d fuel iter (writeDirent memory dirp iter.key (d.inode iter.value) iter.i)
          (dirp + direntLength iter.key) (count - direntLength iter.key) (nread + direntLength iter.key) iter.i

/-- Each turn of the loop passes a slot. -/
def ramfsGetdents (d : Directory) (offset : ℕ) (dirp : Memory) (count : ℕ) : Option (Except Errno ℕ × Memory × ℕ) :=
  getdentsLoop d (d.files.size + 1) ⟨offset, default, default⟩ dirp 0 count 0 offset

/-- The loop of `dev` goes from one record to the next by their lengths. -/
def dirents (buffer : List UInt8) : List (List UInt8) := records (fun rest => le16 rest offsetofDReclen) buffer

/-- The names and types in a buffer, if its records make up the whole buffer -/
def readDirents (buffer : List UInt8) : Option (List (List UInt8 × UInt8)) :=
  if (dirents buffer).flatten = buffer then
    some ((dirents buffer).map fun record => ((record.drop offsetofDName).takeWhile (· ≠ 0), record.getLastD 0))
  else none

/-- A record of a call of `ramfs_getdents` -/
structure Report where
  offset : ℕ
  dirp : Memory
  count : ℕ
  result : Except Errno ℕ
  filled : Memory
  next : ℕ

/-- Calls with any buffers, one after the other on one open file -/
def Directory.listing (d : Directory) : ℕ → List (Memory × ℕ) → Option (List Report)
  | _, [] => some []
  | offset, (dirp, count) :: rest =>
    (ramfsGetdents d offset dirp count).bind fun (result, filled, next) =>
      (d.listing next rest).map fun reports => ⟨offset, dirp, count, result, filled, next⟩ :: reports

end Phabos.Fs
