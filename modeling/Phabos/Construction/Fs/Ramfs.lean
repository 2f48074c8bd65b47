import Phabos.Construction.Lib.Hashtable

/-
This file embeds the data path of fs/ramfs.c and `sys_lseek` of fs/fs.c.
-/

namespace Phabos.Ramfs

/-- Every configuration sets CONFIG_RAMFS_DATA_BLOCK_SIZE to this value. -/
def dataBlockSize : Nat := 256

/-- Arithmetic on `off_t` wraps at 32 bits. -/
def offT (value : Int) : Int := value.bmod (2 ^ 32)

/-- An inode maps block numbers to data blocks in memory; each open file has its own offset. -/
structure State where
  blocks : Hashtable (BitVec 32) Nat
  data : Nat → Nat → UInt8
  nextBlock : Nat
  offset : Nat → Int

/-- The inode of a new regular file has no block. -/
def State.initial : State := ⟨.create uintKeys, fun _ _ => 0, 1, fun _ => 0⟩

/-- The cast `(void*) block_id` keeps the low 32 bits. -/
def blockKey (blockId : Int) : BitVec 32 := BitVec.ofInt 32 blockId

/-- `zalloc` returns a new block of zero bytes, here always with success. -/
def State.zalloc (s : State) : Nat × State :=
  (s.nextBlock, { s with
    data := Function.update s.data s.nextBlock fun _ => 0
    nextBlock := s.nextBlock + 1 })

/-- A write looks its block up and adds a new one when there is none. -/
def State.writeBlock (s : State) (blockId : Int) : Option (Nat × State) :=
  (s.blocks.get (blockKey blockId)).bind fun block =>
    if block = 0 then
      let (fresh, allocated) := s.zalloc
      (allocated.blocks.add (blockKey blockId) fresh).map fun blocks =>
        (fresh, { allocated with blocks := blocks })
    else some (block, s)

/-- `memcpy(&block->data, buf, size)` writes the start of the block from the start of the buffer. -/
def State.copyIn (s : State) (block : Nat) (buf : Nat → UInt8) (size : Nat) : State :=
  { s with data := Function.update s.data block fun k => if k < size then buf k else s.data block k }

/-- `file->offset += size` -/
def State.advance (s : State) (file size : Nat) : State :=
  { s with offset := Function.update s.offset file (offT (s.offset file + size)) }

/-- `MIN(RAMFS_DATA_BLOCK_SIZE - offset, count)` -/
def transferSize (offset : Int) (count : Nat) : Nat := min ((dataBlockSize : Int) - offset).toNat count

/-- This is the loop of `ramfs_write`; each iteration transfers at least one byte. -/
def writeLoop (buf : Nat → UInt8) (file : Nat) :
    Nat → State → Int → Int → Nat → Nat → Option (Nat × State)
  | 0, s, _, _, count, wcount => if count = 0 then some (wcount, s) else none
  | fuel + 1, s, blockId, offset, count, wcount =>
    if count = 0 then some (wcount, s) else
      let size := transferSize offset count
      (s.writeBlock blockId).bind fun (block, s) =>
        writeLoop buf file fuel ((s.copyIn block buf size).advance file size) (blockId + 1) 0
          (count - size) (wcount + size)

/-- `ramfs_write` returns the number of bytes it transferred. -/
def write (s : State) (file : Nat) (buf : Nat → UInt8) (count : Nat) : Option (Nat × State) :=
  writeLoop buf file count s ((s.offset file).tdiv dataBlockSize)
    ((s.offset file).tmod dataBlockSize) count 0

/-- A read copies the start of the block, or zeros for a hole, to the start of the buffer. -/
def State.copyOut (s : State) (block : Nat) (buf : Nat → UInt8) (size : Nat) : Nat → UInt8 :=
  fun k => if k < size then (if block = 0 then 0 else s.data block k) else buf k

/-- This is the loop of `ramfs_read`. -/
def readLoop (file : Nat) :
    Nat → State → (Nat → UInt8) → Int → Int → Nat → Nat → Option (Nat × (Nat → UInt8) × State)
  | 0, s, buf, _, _, count, rcount => if count = 0 then some (rcount, buf, s) else none
  | fuel + 1, s, buf, blockId, offset, count, rcount =>
    if count = 0 then some (rcount, buf, s) else
      let size := transferSize offset count
      (s.blocks.get (blockKey blockId)).bind fun block =>
        readLoop file fuel (s.advance file size) (s.copyOut block buf size) (blockId + 1) 0
          (count - size) (rcount + size)

/-- `ramfs_read` returns the number of bytes and the buffer of the caller. -/
def read (s : State) (file : Nat) (buf : Nat → UInt8) (count : Nat) :
    Option (Nat × (Nat → UInt8) × State) :=
  readLoop file count s buf ((s.offset file).tdiv dataBlockSize)
    ((s.offset file).tmod dataBlockSize) count 0

inductive Whence where
  | seekSet
  | seekCur
  | other
  deriving DecidableEq

def EINVAL : Int := 22

/-- `sys_lseek` returns the new offset. -/
def lseek (s : State) (file : Nat) (offset : Int) : Whence → Int × State
  | .seekSet => (offset, { s with offset := Function.update s.offset file offset })
  | .seekCur =>
    let moved := offT (s.offset file + offset)
    (moved, { s with offset := Function.update s.offset file moved })
  | .other => (-EINVAL, s)

/-- These calls reach one inode through any number of open files. -/
inductive Call where
  | lseek (file : Nat) (offset : Int) (whence : Whence)
  | write (file : Nat) (buf : Nat → UInt8) (count : Nat)
  | read (file : Nat) (buf : Nat → UInt8) (count : Nat)

def step (s : State) : Call → Option State
  | .lseek file offset whence => some (lseek s file offset whence).2
  | .write file buf count => (write s file buf count).map fun result => result.2
  | .read file buf count => (read s file buf count).map fun result => result.2.2

/-
This part embeds the loops of `ramfs_write` and `ramfs_read` again, with the copies that they make and with an
allocation that can fail.
-/

def ENOSPC : Int := 28

/-- A `memcpy` or a `memset` between the start of a block and the start of a buffer -/
structure Copy where
  blockId : Int
  offset : Int
  size : ℕ

/-- The loop of `ramfs_write`, cut off after `fuel` turns. `zalloc turn` tells whether an allocation in this turn
succeeds. The result is that of the call, and its copies. -/
def writeTurns (buf : ℕ → UInt8) (file : ℕ) :
    ℕ → (ℕ → Bool) → State → Int → Int → ℕ → ℕ → Option (Int × List Copy × State)
  | 0, _, s, _, _, count, wcount => if count = 0 then some (wcount, [], s) else none
  | fuel + 1, zalloc, s, blockId, offset, count, wcount =>
    if count = 0 then some (wcount, [], s) else
      let size := transferSize offset count
      (s.blocks.get (blockKey blockId)).bind fun found =>
        if found = 0 ∧ zalloc 0 = false then some (if wcount = 0 then -ENOSPC else wcount, [], s)
        else (s.writeBlock blockId).bind fun (block, s) =>
          (writeTurns buf file fuel (fun turn => zalloc (turn + 1)) ((s.copyIn block buf size).advance file size)
            (blockId + 1) 0 (count - size) (wcount + size)).map fun (result, copies, s) =>
              (result, ⟨blockId, offset, size⟩ :: copies, s)

def ramfsWrite (s : State) (file : ℕ) (buf : ℕ → UInt8) (count : ℕ) (zalloc : ℕ → Bool) :
    Option (Int × List Copy × State) :=
  writeTurns buf file count zalloc s ((s.offset file).tdiv dataBlockSize) ((s.offset file).tmod dataBlockSize) count 0

/-- The loop of `ramfs_read`. -/
def readTurns (file : ℕ) : ℕ → State → (ℕ → UInt8) → Int → Int → ℕ → ℕ → Option (Int × List Copy × State)
  | 0, s, _, _, _, count, rcount => if count = 0 then some (rcount, [], s) else none
  | fuel + 1, s, buf, blockId, offset, count, rcount =>
    if count = 0 then some (rcount, [], s) else
      let size := transferSize offset count
      (s.blocks.get (blockKey blockId)).bind fun block =>
        (readTurns file fuel (s.advance file size) (s.copyOut block buf size) (blockId + 1) 0 (count - size)
          (rcount + size)).map fun (result, copies, s) => (result, ⟨blockId, offset, size⟩ :: copies, s)

def ramfsRead (s : State) (file : ℕ) (buf : ℕ → UInt8) (count : ℕ) : Option (Int × List Copy × State) :=
  readTurns file count s buf ((s.offset file).tdiv dataBlockSize) ((s.offset file).tmod dataBlockSize) count 0

/-- A `size_t` counts the bytes, and an `off_t` is the argument of a seek. -/
inductive Access where
  | sysLseek (file : ℕ) (offset : BitVec 32) (whence : Whence)
  | sysWrite (file : ℕ) (buf : ℕ → UInt8) (count : BitVec 32) (zalloc : ℕ → Bool)
  | sysRead (file : ℕ) (buf : ℕ → UInt8) (count : BitVec 32)

/-- The result of a call, its copies, and the state behind it -/
def Access.call (s : State) : Access → Option (Int × List Copy × State)
  | .sysLseek file offset whence =>
    let (result, s) := lseek s file offset.toInt whence
    some (result, [], s)
  | .sysWrite file buf count zalloc => if count = 0 then some (0, [], s) else ramfsWrite s file buf count.toNat zalloc
  | .sysRead file buf count => if count = 0 then some (0, [], s) else ramfsRead s file buf count.toNat

def Access.step (s : State) (access : Access) : Option State := (access.call s).map fun (_, _, next) => next

end Phabos.Ramfs

/-
This part embeds the reads and maps of fs/binfs.c with `sys_lseek` and `sys_mmap` of fs/fs.c. An `off_t` and a `size_t`
are 32 bits. Where both stand in one expression the C code takes the bits of the `off_t` as an unsigned number.
-/

namespace Phabos.Binfs
open Ramfs (Whence EINVAL)

/-- A `struct bin_entry` and the memory that it points into -/
structure Bin where
  bin : BitVec 32
  size : BitVec 32
  memory : BitVec 32 → UInt8

/-- `memcpy(buf, bin->bin + file->offset, nread)` -/
def Bin.bytes (b : Bin) (offset nread : BitVec 32) : List UInt8 :=
  (List.range nread.toNat).map fun i => b.memory (b.bin + offset + BitVec.ofNat 32 i)

/-- The result of `binfs_read`, what it copies to the buffer, and `file->offset` behind it. The result is an
`ssize_t`. -/
def binfsRead (b : Bin) (offset count : BitVec 32) : Int × List UInt8 × BitVec 32 :=
  if offset ≥ b.size then (0, [], offset)
  else
    let nread := if count < b.size - offset then count else b.size - offset
    (nread.toInt, b.bytes offset nread, offset + nread)

/-- A failed map is the pointer `(void*) ~0`. -/
def binfsMmap (b : Bin) (length offset : BitVec 32) : Option (BitVec 32) :=
  if length + offset ≥ b.size ∨ offset ≥ b.size then none else some (b.bin + offset)

def sysRead (b : Bin) (offset count : BitVec 32) : Int × List UInt8 × BitVec 32 :=
  if count = 0 then (0, [], offset) else binfsRead b offset count

def sysMmap (b : Bin) (length offset : BitVec 32) : Option (BitVec 32) :=
  if length = 0 then none else binfsMmap b length offset

def sysLseek (offset moved : BitVec 32) : Whence → Int × BitVec 32
  | .seekSet => (moved.toInt, moved)
  | .seekCur => ((offset + moved).toInt, offset + moved)
  | .other => (-EINVAL, offset)

inductive Call where
  | sysLseek (offset : BitVec 32) (whence : Whence)
  | sysRead (count : BitVec 32)
  | sysMmap (length offset : BitVec 32)

/-- The state is the offset of the open file. -/
def step (b : Bin) (offset : BitVec 32) : Call → Option (BitVec 32)
  | .sysLseek moved whence => some (sysLseek offset moved whence).2
  | .sysRead count => some (sysRead b offset count).2.2
  | .sysMmap _ _ => some offset

end Phabos.Binfs
