import Phabos.Construction.Kernel.Mm

/-
This file embeds `elf_exec` of kernel/elf-loader.c with the functions that it calls. A file has fewer bytes than an
`off_t` can count, and its reads may be short but do not fail.
-/

namespace Phabos.Elf
open Library

def EINVAL : Int := 22

def ENOMEM : Int := 12

def PT_LOAD : ℕ := 1

def PT_INTERP : ℕ := 3

/-- A read of a number of bytes at an offset gives at most a chunk of them. -/
structure File where
  content : List UInt8
  chunk : ℕ → ℕ → ℕ
  addressed : content.length < 2 ^ 31
  short : ∀ offset count, chunk offset count ≤ count
  some : ∀ offset count, 0 < count → 0 < chunk offset count

def File.sysRead (f : File) (pos count : ℕ) : List UInt8 := (f.content.drop pos).take (f.chunk pos count)

theorem File.length_sysRead_le (f : File) (pos count : ℕ) : (f.sysRead pos count).length ≤ count :=
  Nat.le_trans (List.length_take_le _ _) (f.short pos count)

/-- The result of `elf_read`, the bytes that it put into the buffer, and the offset behind them. `size` is what the
loop has left to read. -/
def elfRead (f : File) (pos size : ℕ) : Int × List UInt8 × ℕ :=
  let read := f.sysRead pos size
  if read = [] then (-EINVAL, [], pos)
  else if read.length = size then (0, read, pos + read.length)
  else
    let (retval, rest, pos) := elfRead f (pos + read.length) (size - read.length)
    (retval, read ++ rest, pos)
  termination_by size
  decreasing_by
    have fits := f.length_sysRead_le pos size
    have positive : 0 < (f.sysRead pos size).length := List.length_pos_iff.mpr ‹_›
    omega

/-- An `Elf32_Word` of a structure -/
def word (bytes : List UInt8) (offset : ℕ) : ℕ := le16 bytes offset + 65536 * le16 bytes (offset + 2)

def sizeofEhdr : ℕ := 52

def sizeofPhdr : ℕ := 32

def ePhoff (hdr : List UInt8) : ℕ := word hdr 28

def ePhentsize (hdr : List UInt8) : ℕ := le16 hdr 42

def ePhnum (hdr : List UInt8) : ℕ := le16 hdr 44

def pType (phdr : List UInt8) : ℕ := word phdr 0

def pOffset (phdr : List UInt8) : ℕ := word phdr 4

def pFilesz (phdr : List UInt8) : ℕ := word phdr 16

def pMemsz (phdr : List UInt8) : ℕ := word phdr 20

/-- The magic, `ELFCLASS32`, `ELFDATA2LSB`, `ET_DYN`, `EM_ARM` and `EV_CURRENT`. Another version in `e_ident` is only
reported. -/
def verifyFile (hdr : List UInt8) : Int :=
  if hdr.take 4 ≠ [0x7f, 0x45, 0x4c, 0x46] then -EINVAL
  else if hdr.getD 4 0 ≠ 1 then -EINVAL
  else if hdr.getD 5 0 ≠ 1 then -EINVAL
  else if le16 hdr 16 ≠ 3 then -EINVAL
  else if le16 hdr 18 ≠ 0x28 then -EINVAL
  else if word hdr 20 ≠ 1 then -EINVAL
  else 0

/-- The bytes of a buffer that `kmalloc` gives for a size that belong to the caller and are no more than he asked for.
The sum of the size and the header is 32 bits. -/
def kmallocRoom (size : ℕ) : ℕ :=
  min size (2 ^ (Mm.sizeToOrder (BitVec.ofNat 32 (size + Mm.bufferSize)).toNat).toNat - Mm.bufferSize)

/-- Bytes written to the start of a buffer: the room of the buffer, how many were to be written, and how many were -/
structure Access where
  room : ℕ
  wanted : ℕ
  got : ℕ

/-- The offset of the file, the `Elf32_Phdr` buffer, all writes to buffers, the places of the headers that the second
loop has read, and the segments -/
structure Loader where
  pos : ℕ
  phdr : List UInt8
  accesses : List Access
  headers : List ℕ
  segments : List (List UInt8)

/-- Which allocations succeed, what `kmalloc` leaves in the `Elf32_Phdr` buffer, and the offset of the file at first -/
structure Environment where
  hdr : Bool
  phdr : Bool
  zalloc : ℕ → Bool
  garbage : List UInt8
  start : ℕ

/-- `zalloc` clears as many bytes as it was asked for. An `off_t` from `p_offset` is negative from 2 ^ 31 on, and the
error path goes back to `pos`. -/
def elfLoadSegment (f : File) (env : Environment) (s : Loader) : Int × Loader :=
  let memsz := pMemsz s.phdr
  if memsz = 0 ∨ env.zalloc s.segments.length = false then (-ENOMEM, s)
  else
    let s := { s with accesses := s.accesses ++ [⟨kmallocRoom memsz, memsz, memsz⟩] }
    if 2 ^ 31 ≤ pOffset s.phdr then ((pOffset s.phdr : Int) - 2 ^ 32, s)
    else
      let (retval, bytes, pos) := elfRead f (pOffset s.phdr) (pFilesz s.phdr)
      let s := { s with accesses := s.accesses ++ [⟨kmallocRoom memsz, pFilesz s.phdr, bytes.length⟩] }
      if retval ≠ 0 then (retval, s)
      else
        (0, { s with
          pos := pos
          segments := s.segments ++ [bytes.take memsz ++ List.replicate (memsz - bytes.length) 0] })

/-- `elf_read(fd, phdr, hdr->e_phentsize)` -/
def readPhdr (f : File) (phentsize : ℕ) (s : Loader) : Int × Loader :=
  let (retval, bytes, pos) := elfRead f s.pos phentsize
  (retval, { s with
    pos := pos
    phdr := (bytes ++ s.phdr.drop bytes.length).take sizeofPhdr
    accesses := s.accesses ++ [⟨sizeofPhdr, phentsize, bytes.length⟩] })

/-- The first loop of `elf_load_segments`. An error is a `goto exit` with its `retval`, which is 0 for `PT_INTERP`. -/
def findInterp (f : File) (phentsize : ℕ) : ℕ → Loader → Except (Int × Loader) Loader
  | 0, s => .ok s
  | left + 1, s =>
    let (retval, s) := readPhdr f phentsize s
    if retval ≠ 0 then .error (retval, s)
    else if pType s.phdr = PT_INTERP then .error (retval, s)
    else findInterp f phentsize left s

/-- The second loop of `elf_load_segments` -/
def loadSegments (f : File) (env : Environment) (phentsize : ℕ) : ℕ → Loader → Int × Loader
  | 0, s => (0, s)
  | left + 1, s =>
    let place := s.pos
    let (retval, s) := readPhdr f phentsize s
    let s := { s with headers := s.headers ++ [place] }
    if retval ≠ 0 then (retval, s)
    else if pType s.phdr ≠ PT_LOAD then loadSegments f env phentsize left s
    else
      let (retval, s) := elfLoadSegment f env s
      if retval ≠ 0 then (retval, s) else loadSegments f env phentsize left s

def elfLoadSegments (f : File) (env : Environment) (hdr : List UInt8) (s : Loader) : Int × Loader :=
  if ePhnum hdr = 0 then (-EINVAL, s)
  else if env.phdr = false then (-ENOMEM, s)
  else if 2 ^ 31 ≤ ePhoff hdr then ((ePhoff hdr : Int) - 2 ^ 32, s)
  else
    match findInterp f (ePhentsize hdr) (ePhnum hdr) { s with pos := ePhoff hdr } with
    | .error exit => exit
    | .ok s => loadSegments f env (ePhentsize hdr) (ePhnum hdr) { s with pos := ePhoff hdr }

def elfExec (f : File) (env : Environment) : Int × Loader :=
  let s : Loader := ⟨env.start, env.garbage, [], [], []⟩
  if env.hdr = false then (-ENOMEM, s)
  else
    let (retval, hdr, pos) := elfRead f s.pos sizeofEhdr
    let s := { s with pos := pos, accesses := [⟨sizeofEhdr, sizeofEhdr, hdr.length⟩] }
    if retval ≠ 0 then (retval, s)
    else if verifyFile hdr ≠ 0 then (verifyFile hdr, s)
    else elfLoadSegments f env hdr s

end Phabos.Elf
