import Phabos.Construction.Fs.Ramfs
import Phabos.Proof.Hashtable.FiniteMap

namespace Phabos.Ramfs
open Library Option Function

/-- A file is a sequence of bytes; every open file has a position in it. -/
structure Spec where
  content : Nat → UInt8
  offset : Nat → Nat

def Spec.initial : Spec := ⟨fun _ => 0, fun _ => 0⟩

/-- A write replaces the bytes that it covers. -/
def Spec.store (spec : Spec) (start : Nat) (buf : Nat → UInt8) (count : Nat) : Spec :=
  { spec with content := fun position =>
      if start ≤ position ∧ position < start + count then buf (position - start)
      else spec.content position }

/-- Each call moves the offset of its own file only. -/
def Spec.moveTo (spec : Spec) (file offset : Nat) : Spec :=
  { spec with offset := update spec.offset file offset }

/-- The bytes of a file are those that its writes left, in order. -/
def specStep (spec : Spec) : Call → Spec
  | .lseek file offset .seekSet => spec.moveTo file offset.toNat
  | .lseek file offset .seekCur => spec.moveTo file (spec.offset file + offset.toNat)
  | .lseek _ _ .other => spec
  | .write file buf count =>
    (spec.store (spec.offset file) buf count).moveTo file (spec.offset file + count)
  | .read file _ count => spec.moveTo file (spec.offset file + count)

def specOf (calls : List Call) : Spec := calls.foldl specStep Spec.initial

/-- The block map gives this byte of the file; a hole reads as zero. -/
def byteAt (data : Nat → Nat → UInt8) (map : BitVec 32 → Option Nat) (position : Nat) : UInt8 :=
  match map (blockKey ↑(position / dataBlockSize)) with
  | some block => data block (position % dataBlockSize)
  | none => 0

/-- Distinct block numbers of one file have distinct live blocks, and these hold its bytes. -/
structure Models (s : State) (map : BitVec 32 → Option Nat) (spec : Spec) : Prop where
  table : s.blocks.Refines map
  clean : s.blocks.NoTombstone
  live : ∀ key block, map key = some block → 0 < block ∧ block < s.nextBlock
  injective : ∀ first second block, map first = some block → map second = some block → first = second
  content : ∀ position < 2 ^ 31, spec.content position = byteAt s.data map position
  offset : ∀ file, s.offset file = spec.offset file
  bounded : ∀ file, spec.offset file < 2 ^ 31
  allocated : 0 < s.nextBlock

theorem blockKey_natCast (id : Nat) : blockKey ↑id = BitVec.ofNat 32 id := by
  simp [blockKey]

theorem blockKey_injective {first second : Nat} (firstSmall : first < 2 ^ 32)
    (secondSmall : second < 2 ^ 32) (same : blockKey ↑first = blockKey ↑second) :
    first = second := by
  rw [blockKey_natCast, blockKey_natCast] at same
  have values := congrArg BitVec.toNat same
  rwa [BitVec.toNat_ofNat, BitVec.toNat_ofNat, Nat.mod_eq_of_lt firstSmall,
    Nat.mod_eq_of_lt secondSmall] at values

theorem offT_natCast (value : Nat) (small : value < 2 ^ 31) : offT ↑value = ↑value := by
  rw [offT, Int.bmod_eq_of_le]
  · omega
  · omega

theorem models_initial : Models State.initial (fun _ => none) Spec.initial where
  table := Hashtable.refines_create uintKeys
  clean _ := rfl
  live _ _ mapped := by simp at mapped
  injective _ _ _ mapped := by simp at mapped
  content _ _ := rfl
  offset _ := rfl
  bounded _ := by simp [Spec.initial]
  allocated := Nat.one_pos

variable {s : State} {map : BitVec 32 → Option Nat} {spec : Spec}

theorem Models.get (models : Models s map spec) (key : BitVec 32) :
    s.blocks.get key = some ((map key).getD 0) := by
  have load := models.table.load
  exact models.table.get_returns
    (models.table.wellFormed.hasFresh_of_noTombstone models.clean (by omega)) key

theorem Models.writeBlock (models : Models s map spec) (id : Nat) :
    ∃ block next nextMap, s.writeBlock id = some (block, next) ∧ Models next nextMap spec ∧
      nextMap (blockKey id) = some block ∧ next.offset = s.offset := by
  cases mapped : map (blockKey id) with
  | some block =>
    have live := (models.live _ _ mapped).1
    refine ⟨block, s, map, ?_, models, mapped, rfl⟩
    rw [State.writeBlock, models.get, bind_some, mapped, getD_some, if_neg (by omega)]
  | none =>
    obtain ⟨blocks, added, clean, refined⟩ :=
      models.table.add_returns models.clean (blockKey id) s.nextBlock
    refine ⟨s.nextBlock, { s.zalloc.2 with blocks := blocks },
      update map (blockKey id) (some s.nextBlock), ?_, ?_, by simp, rfl⟩
    · rw [State.writeBlock, models.get, bind_some, mapped, getD_none, if_pos rfl]
      change Option.map _ (s.blocks.add (blockKey id) s.nextBlock) = _
      rw [added]
      rfl
    have live (key : BitVec 32) (block : Nat)
        (entry : update map (blockKey id) (some s.nextBlock) key = some block) :
        key = blockKey id ∧ block = s.nextBlock ∨
          key ≠ blockKey id ∧ map key = some block ∧ 0 < block ∧ block < s.nextBlock := by
      by_cases same : key = blockKey id
      · subst key
        exact .inl ⟨rfl, by simpa using entry.symm⟩
      · rw [update_of_ne same] at entry
        exact .inr ⟨same, entry, models.live key block entry⟩
    have positive := models.allocated
    refine ⟨refined, clean, ?_, ?_, ?_, models.offset, models.bounded, Nat.succ_pos _⟩
    · intro key block entry
      change 0 < block ∧ block < s.nextBlock + 1
      rcases live key block entry with ⟨_, rfl⟩ | ⟨_, _, bounds⟩ <;> omega
    · intro first second block one two
      rcases live first block one with ⟨rfl, rfl⟩ | ⟨_, mappedOne, boundsOne⟩
      · rcases live second _ two with ⟨rfl, _⟩ | ⟨_, _, bounds⟩
        · rfl
        · omega
      · rcases live second block two with ⟨_, rfl⟩ | ⟨_, mappedTwo, _⟩
        · omega
        · exact models.injective first second block mappedOne mappedTwo
    · intro position small
      rw [models.content position small, byteAt, byteAt]
      by_cases same : blockKey ↑(position / dataBlockSize) = blockKey ↑id
      · rw [same, mapped]
        simp [State.zalloc]
      · rw [update_of_ne same]
        cases other : map (blockKey ↑(position / dataBlockSize)) with
        | none => rfl
        | some block =>
          have bounds := models.live _ _ other
          have apart : block ≠ s.nextBlock := by omega
          simp [State.zalloc, apart]

theorem Models.copyIn (models : Models s map spec) {id block size : Nat} (buf : Nat → UInt8)
    (mapped : map (blockKey id) = some block) (small : id < 2 ^ 23) (fits : size ≤ dataBlockSize) :
    Models (s.copyIn block buf size) map (spec.store (id * dataBlockSize) buf size) := by
  refine { models with content := ?_ }
  intro position inside
  have covers : id * dataBlockSize ≤ position ∧ position < id * dataBlockSize + size ↔
      position / dataBlockSize = id ∧ position % dataBlockSize < size := by
    simp only [dataBlockSize] at fits ⊢
    omega
  simp only [Spec.store, models.content position inside, byteAt, State.copyIn, covers]
  by_cases here : position / dataBlockSize = id
  · simp only [here, mapped, update_self, true_and]
    by_cases covered : position % dataBlockSize < size
    · have distance : position - id * dataBlockSize = position % dataBlockSize := by
        rw [← here, Nat.mod_eq_sub_div_mul]
      rw [if_pos covered, if_pos covered, distance]
    · rw [if_neg covered, if_neg covered]
  · simp only [here, false_and, if_false]
    cases other : map (blockKey ↑(position / dataBlockSize)) with
    | none => rfl
    | some found =>
      have apart : found ≠ block := by
        rintro rfl
        refine here (blockKey_injective ?_ (by omega) (models.injective _ _ _ other mapped))
        exact lt_of_le_of_lt (Nat.div_le_self _ _) (by omega)
      simp [apart]

theorem Models.advance (models : Models s map spec) (file size : Nat) (fits : spec.offset file + size < 2 ^ 31) :
    Models (s.advance file size) map (spec.moveTo file (spec.offset file + size)) := by
  refine { models with offset := ?_, bounded := ?_ }
  · intro other
    by_cases same : other = file
    · subst other
      have moved := offT_natCast _ fits
      rw [Int.natCast_add] at moved
      simp [State.advance, Spec.moveTo, models.offset, moved]
    · simp [State.advance, Spec.moveTo, same, models.offset]
  · intro other
    by_cases same : other = file
    · subst other
      simpa [Spec.moveTo] using fits
    · simpa [Spec.moveTo, same] using models.bounded other

theorem writeLoop_zero (buf : Nat → UInt8) (file fuel : Nat) (s : State) (id offset : Int)
    (wcount : Nat) : writeLoop buf file fuel s id offset 0 wcount = some (wcount, s) := by
  cases fuel <;> simp [writeLoop]

theorem readLoop_zero (file fuel : Nat) (s : State) (buf : Nat → UInt8) (id offset : Int)
    (rcount : Nat) : readLoop file fuel s buf id offset 0 rcount = some (rcount, buf, s) := by
  cases fuel <;> simp [readLoop]

theorem copyOut_zero (s : State) (block : Nat) (buf : Nat → UInt8) : s.copyOut block buf 0 = buf := by
  funext k
  simp [State.copyOut]

theorem transferSize_of_fits {start count : Nat} (fits : start % dataBlockSize + count ≤ dataBlockSize) :
    transferSize ((start : Int).tmod dataBlockSize) count = count := by
  rw [transferSize, ← Int.ofNat_tmod, Nat.min_eq_right]
  omega

theorem Models.read (models : Models s map spec) (file : Nat) (buf : Nat → UInt8) {count : Nat}
    (fits : count = 0 ∨ spec.offset file % dataBlockSize + count ≤ dataBlockSize) :
    read s file buf count = some (count,
      s.copyOut ((map (blockKey ↑(spec.offset file / dataBlockSize))).getD 0) buf count,
      if count = 0 then s else s.advance file count) := by
  cases count with
  | zero => rw [Ramfs.read, readLoop_zero, copyOut_zero, if_pos rfl]
  | succ count =>
    have fits := fits.resolve_left (by omega)
    rw [Ramfs.read, models.offset file, readLoop, if_neg (by omega)]
    simp only [transferSize_of_fits fits, ← Int.ofNat_tdiv, models.get, bind_some,
      Nat.sub_self, readLoop_zero, Nat.zero_add]
    simp

/-- A write at the start of a block changes the file as the specification says. -/
theorem Models.write (models : Models s map spec) (file : Nat) (buf : Nat → UInt8) (count : Nat)
    (aligned : count = 0 ∨ spec.offset file % dataBlockSize = 0 ∧ count ≤ dataBlockSize)
    (room : spec.offset file + count < 2 ^ 31) :
    ∃ next nextMap, write s file buf count = some (count, next) ∧
      Models next nextMap (specStep spec (.write file buf count)) := by
  cases count with
  | zero =>
    refine ⟨s, map, by rw [Ramfs.write, writeLoop_zero], ?_⟩
    have same : specStep spec (.write file buf 0) = spec := by
      have empty (position start : Nat) : ¬ (start ≤ position ∧ position < start) := by omega
      simp [specStep, Spec.store, Spec.moveTo, empty]
    rw [same]
    exact models
  | succ count =>
    obtain ⟨start, fits⟩ := aligned.resolve_left (by omega)
    obtain ⟨block, found, nextMap, looked, kept, mapped, offsets⟩ :=
      models.writeBlock (spec.offset file / dataBlockSize)
    have small : spec.offset file / dataBlockSize < 2 ^ 23 := by
      simp only [dataBlockSize]
      omega
    have base : spec.offset file / dataBlockSize * dataBlockSize = spec.offset file :=
      Nat.div_mul_cancel (Nat.dvd_of_mod_eq_zero start)
    have stored := (kept.copyIn buf mapped small fits).advance file (count + 1) room
    refine ⟨(found.copyIn block buf (count + 1)).advance file (count + 1), nextMap, ?_, ?_⟩
    · rw [Ramfs.write, models.offset file, writeLoop, if_neg (by omega)]
      simp only [transferSize_of_fits (show spec.offset file % dataBlockSize + (count + 1) ≤
        dataBlockSize by omega), ← Int.ofNat_tdiv, looked, bind_some, Nat.sub_self,
        writeLoop_zero, Nat.zero_add]
    · rw [base] at stored
      exact stored

/-- The call stays within one block: a write starts at a block boundary, a read does so or reads a
hole, and no offset passes the largest `off_t`. -/
def StaysInBlock (s : State) : Call → Prop
  | .lseek _ offset .seekSet => 0 ≤ offset ∧ offset < 2 ^ 31
  | .lseek file offset .seekCur => 0 ≤ offset ∧ s.offset file + offset < 2 ^ 31
  | .lseek _ _ .other => True
  | .write file _ count => (count = 0 ∨ s.offset file % dataBlockSize = 0 ∧ count ≤ dataBlockSize) ∧
      s.offset file + count < 2 ^ 31
  | .read file _ count => (count = 0 ∨ s.offset file % dataBlockSize = 0 ∧ count ≤ dataBlockSize ∨
        s.offset file % dataBlockSize + count ≤ dataBlockSize ∧
          s.blocks.get (blockKey (s.offset file / dataBlockSize)) = some 0) ∧
      s.offset file + count < 2 ^ 31

theorem Models.content_of_hole (models : Models s map spec) {position : Nat} (small : position < 2 ^ 31)
    (hole : s.blocks.get (blockKey ↑(position / dataBlockSize)) = some 0) :
    spec.content position = 0 := by
  rw [models.content position small, byteAt]
  rw [models.get, some.injEq] at hole
  cases mapped : map (blockKey ↑(position / dataBlockSize)) with
  | none => rfl
  | some block =>
    have live := (models.live _ _ mapped).1
    rw [mapped, getD_some] at hole
    omega

/-- A read gives the bytes of the file and moves its offset. -/
theorem Models.read_content (models : Models s map spec) (file : Nat) (buf : Nat → UInt8)
    {count : Nat} (stays : StaysInBlock s (.read file buf count)) :
    ∃ out, Ramfs.read s file buf count =
        some (count, out, if count = 0 then s else s.advance file count) ∧
      ∀ i < count, out i = spec.content (spec.offset file + i) := by
  obtain ⟨shape, room⟩ := stays
  rw [models.offset file] at shape room
  have fits : count = 0 ∨ spec.offset file % dataBlockSize + count ≤ dataBlockSize := by
    rcases shape with empty | ⟨start, bound⟩ | ⟨bound, _⟩ <;> omega
  refine ⟨_, models.read file buf fits, fun i inside => ?_⟩
  have bound := fits.resolve_left (by omega)
  have sameBlock : (spec.offset file + i) / dataBlockSize = spec.offset file / dataBlockSize := by
    simp only [dataBlockSize] at bound ⊢
    omega
  have small : spec.offset file + i < 2 ^ 31 := by omega
  rw [State.copyOut, if_pos inside]
  rcases shape with empty | ⟨start, _⟩ | ⟨_, hole⟩
  · omega
  · have distance : (spec.offset file + i) % dataBlockSize = i := by
      simp only [dataBlockSize] at start bound ⊢
      omega
    rw [models.content _ small, byteAt, sameBlock, distance]
    cases mapped : map (blockKey ↑(spec.offset file / dataBlockSize)) with
    | none => rw [getD_none, if_pos rfl]
    | some block =>
      have live := (models.live _ _ mapped).1
      rw [getD_some, if_neg (by omega)]
  · rw [← Int.natCast_ediv] at hole
    rw [models.content_of_hole small (by rw [sameBlock]; exact hole)]
    rw [models.get, some.injEq] at hole
    rw [hole, if_pos rfl]

/-- A call that stays in its block is the call of the specification. -/
theorem Models.step (models : Models s map spec) (call : Call) (stays : StaysInBlock s call) :
    ∃ next, Ramfs.step s call = some next ∧ ∃ nextMap, Models next nextMap (specStep spec call) := by
  have moved (file offset : Nat) (small : offset < 2 ^ 31) :
      Models { s with offset := update s.offset file offset } map
        (spec.moveTo file offset) := by
    refine { models with offset := ?_, bounded := ?_ }
    · intro other
      by_cases same : other = file
      · subst other
        simp [Spec.moveTo]
      · simp [Spec.moveTo, same, models.offset]
    · intro other
      by_cases same : other = file
      · subst other
        simpa [Spec.moveTo] using small
      · simpa [Spec.moveTo, same] using models.bounded other
  cases call with
  | lseek file offset whence =>
    refine ⟨_, rfl, map, ?_⟩
    cases whence with
    | seekSet =>
      obtain ⟨positive, small⟩ := stays
      obtain ⟨target, rfl⟩ := Int.eq_ofNat_of_zero_le positive
      exact moved file target (by omega)
    | seekCur =>
      obtain ⟨positive, small⟩ := stays
      obtain ⟨distance, rfl⟩ := Int.eq_ofNat_of_zero_le positive
      rw [models.offset file] at small
      have target := offT_natCast (spec.offset file + distance) (by omega)
      rw [Int.natCast_add] at target
      have result := moved file (spec.offset file + distance) (by omega)
      simpa [lseek, models.offset, target, specStep] using result
    | other => exact models
  | write file buf count =>
    obtain ⟨aligned, room⟩ := stays
    rw [models.offset file] at aligned room
    obtain ⟨next, nextMap, written, kept⟩ :=
      models.write file buf count (by omega) (by omega)
    exact ⟨next, by rw [Ramfs.step, written, map_some], nextMap, kept⟩
  | read file buf count =>
    obtain ⟨out, returned, _⟩ := models.read_content file buf stays
    refine ⟨_, by rw [Ramfs.step, returned, map_some], map, ?_⟩
    have room := stays.2
    rw [models.offset file] at room
    by_cases empty : count = 0
    · subst empty
      simpa [specStep, Spec.moveTo] using models
    · simp only [if_neg empty]
      exact models.advance file count (by omega)

/-- In every run whose calls all stay within one block, the offsets are those of the abstract file,
and every further read or write that does so returns its whole count, moves its own offset by that
count, and a read returns the bytes that were written last. -/
theorem ramfs_read_after_write (calls : List Call) (stays : Guarded step StaysInBlock State.initial calls) :
    ∃ s, run step State.initial calls = some s ∧
      (∀ file, s.offset file = (specOf calls).offset file) ∧
      (∀ file buf count, StaysInBlock s (.read file buf count) →
        ∃ out next, read s file buf count = some (count, out, next) ∧
          next.offset = update s.offset file (s.offset file + count) ∧
          ∀ i < count, out i = (specOf calls).content ((specOf calls).offset file + i)) ∧
      (∀ file buf count, StaysInBlock s (.write file buf count) →
        ∃ next, write s file buf count = some (count, next) ∧
          next.offset = update s.offset file (s.offset file + count)) := by
  obtain ⟨s, ran, map, models⟩ := run_simulation_of_guarded step specStep StaysInBlock
    (fun s spec => ∃ map, Models s map spec)
    (fun s spec call ⟨_, models⟩ guarded => models.step call guarded)
    State.initial Spec.initial calls ⟨_, models_initial⟩ stays
  have shifted (next : State) (nextMap : BitVec 32 → Option Nat) (spec : Spec) (file count : Nat)
      (kept : Models next nextMap spec)
      (same : spec.offset = update (specOf calls).offset file
        ((specOf calls).offset file + count)) :
      next.offset = update s.offset file (s.offset file + count) := by
    funext other
    rw [kept.offset other, same]
    by_cases equal : other = file
    · subst other
      simp [models.offset, specOf]
    · simp [equal, models.offset, specOf]
  refine ⟨s, ran, models.offset, fun file buf count guarded => ?_, fun file buf count guarded => ?_⟩
  · obtain ⟨out, returned, bytes⟩ := models.read_content file buf guarded
    obtain ⟨next, stepped, nextMap, kept⟩ := models.step _ guarded
    rw [step, returned, Option.map_some, Option.some.injEq] at stepped
    change (if count = 0 then s else s.advance file count) = next at stepped
    refine ⟨out, _, returned, ?_, bytes⟩
    rw [stepped]
    exact shifted next nextMap _ file count kept rfl
  · obtain ⟨aligned, room⟩ := guarded
    rw [models.offset file] at aligned room
    obtain ⟨next, nextMap, written, kept⟩ :=
      models.write file buf count (by omega) (by omega)
    exact ⟨next, written, shifted next nextMap _ file count kept rfl⟩

/-- The bytes of a short text. -/
def text (bytes : List UInt8) (k : Nat) : UInt8 := bytes.getD k 0

/-- Two files on one inode: the second one reads back what the first one wrote. -/
theorem ramfs_read_after_write_shared :
    ∃ s out next, run step State.initial [.write 0 (text [65, 66]) 2, .lseek 0 0 .seekSet] = some s ∧
      read s 1 (text []) 2 = some (2, out, next) ∧ out 0 = 65 ∧ out 1 = 66 := by
  obtain ⟨s, ran, offsets, reads, _⟩ := ramfs_read_after_write
    [.write 0 (text [65, 66]) 2, .lseek 0 0 .seekSet]
    (Guarded.cons ⟨.inr ⟨rfl, by decide⟩, by decide⟩ rfl (Guarded.cons ⟨by decide, by decide⟩ rfl trivial))
  have start : s.offset 1 = 0 := offsets 1
  obtain ⟨out, next, returned, _, bytes⟩ := reads 1 (text []) 2
    ⟨.inr (.inl ⟨by rw [start]; rfl, by decide⟩), by rw [start]; decide⟩
  exact ⟨s, out, next, ran, returned, bytes 0 (by decide), bytes 1 (by decide)⟩

/-- After a write of "AB" the byte at position 1 should be "B", but a read there returns "A". -/
theorem ramfs_read_ignores_offset :
    ∃ s out next, run step State.initial [.write 0 (text [65, 66]) 2, .lseek 0 1 .seekSet] = some s ∧
      read s 0 (text []) 1 = some (1, out, next) ∧ out 0 = 65 ∧
      (specOf [.write 0 (text [65, 66]) 2, .lseek 0 1 .seekSet]).content
        ((specOf [.write 0 (text [65, 66]) 2, .lseek 0 1 .seekSet]).offset 0) = 66 :=
  ⟨_, _, _, rfl, rfl, by decide, by decide⟩

end Phabos.Ramfs
