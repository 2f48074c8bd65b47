import Phabos.Construction.Fs.Getdents
import Phabos.Proof.Hashtable.Iteration

namespace Phabos.Fs
open Library ByteMemory Function List

/-- The `DT_` constant for the type of an inode -/
def Inode.direntType (inode : Inode) : UInt8 :=
  if inode.flags &&& S_IFMT = S_IFDIR then DT_DIR
  else if inode.flags &&& S_IFMT = S_IFREG then DT_REG
  else if inode.flags &&& S_IFMT = S_IFCHR then DT_CHR
  else if inode.flags &&& S_IFMT = S_IFBLK then DT_BLK
  else DT_UNKNOWN

/-- The bytes of a record of `struct phabos_dirent`, whatever its first two fields and its padding hold. -/
def IsDirent (name : CString) (type : UInt8) (bytes : List UInt8) : Prop :=
  bytes.length = direntLength name ∧ ∃ front pad, front.length = offsetofDReclen ∧
    bytes = front ++ le16Bytes (direntLength name) ++ (name.bytes ++ 0 :: (pad ++ [type]))

section Dirent
variable {name : CString} {type : UInt8} {bytes rest : List UInt8}

theorem direntLength_bounds (name : CString) :
    name.bytes.length + 15 ≤ direntLength name ∧ direntLength name ≤ name.bytes.length + 18 := by
  unfold direntLength sizeofDirent sizeofPointer
  dsimp only
  omega

theorem le16_front {front after : List UInt8} (value : ℕ) (eight : front.length = offsetofDReclen) :
    le16 (front ++ le16Bytes value ++ after) offsetofDReclen = value % 65536 := by
  rw [← eight]
  exact le16_le16Bytes front after value

theorem writeDirent_isDirent (memory : Memory) (dirp : ℕ) (name : CString) (inode : Inode) (next : ℕ) :
    IsDirent name (dType inode) (read (writeDirent memory dirp name inode next) dirp (direntLength name)) := by
  have bounds := direntLength_bounds name
  refine ⟨length_read _ _ _, read (writeDirent memory dirp name inode next) dirp offsetofDReclen,
    read (writeDirent memory dirp name inode next) (dirp + offsetofDName + (name.bytes.length + 1))
      (direntLength name - (name.bytes.length + 12)), length_read _ _ _, ?_⟩
  have split : direntLength name =
      offsetofDReclen + (2 + ((name.bytes.length + 1) + (direntLength name - (name.bytes.length + 12) + 1))) := by
    unfold offsetofDReclen
    omega
  have text : (name.bytes ++ [0]).length = name.bytes.length + 1 := length_append
  have length : read (writeDirent memory dirp name inode next) (dirp + offsetofDReclen) 2 =
      le16Bytes (direntLength name) := read_write_self
  have string : read (writeDirent memory dirp name inode next) (dirp + offsetofDName) (name.bytes.length + 1) =
      name.bytes ++ [0] := by
    unfold writeDirent
    dsimp only
    rw [read_write_outside (by right; rw [length_le16Bytes]; unfold offsetofDReclen offsetofDName; omega), ← text]
    exact read_write_self
  have last : read (writeDirent memory dirp name inode next) (dirp + direntLength name - 1) 1 = [dType inode] := by
    unfold writeDirent
    dsimp only
    rw [read_write_outside (by right; rw [length_le16Bytes]; unfold offsetofDReclen; omega),
      read_write_outside (by right; rw [text]; unfold offsetofDName; omega),
      read_write_outside (by right; rw [length_le32Bytes]; unfold offsetofDOff; omega)]
    exact @read_write_self _ _ [dType inode]
  have parts := congrArg (read (writeDirent memory dirp name inode next) dirp) split
  rw [read_add, read_add _ _ 2, length, show dirp + offsetofDReclen + 2 = dirp + offsetofDName from rfl,
    read_add _ _ (name.bytes.length + 1), string, read_add _ _ _ 1,
    show dirp + offsetofDName + (name.bytes.length + 1) + (direntLength name - (name.bytes.length + 12)) =
      dirp + direntLength name - 1 by unfold offsetofDName; omega, last] at parts
  rw [parts]
  simp only [append_assoc, cons_append, nil_append]

end Dirent

section Records
variable {name : CString} {type : UInt8} {bytes rest : List UInt8}

section
variable (record : IsDirent name type bytes)
include record

theorem IsDirent.length : bytes.length = direntLength name := record.1

theorem IsDirent.ne_nil : bytes ≠ [] := by
  have bounds := direntLength_bounds name
  intro empty
  rw [← record.length, empty, List.length_nil] at bounds
  omega

theorem IsDirent.reclen (rest : List UInt8) : le16 (bytes ++ rest) offsetofDReclen = direntLength name % 65536 := by
  obtain ⟨-, front, pad, eight, rfl⟩ := record
  rw [append_assoc]
  exact le16_front _ eight

theorem IsDirent.dName : (bytes.drop offsetofDName).takeWhile (· ≠ 0) = name.bytes := by
  obtain ⟨-, front, pad, eight, rfl⟩ := record
  rw [List.drop_left' (by rw [length_append, eight, length_le16Bytes]; rfl)]
  rw [List.takeWhile_append_of_pos fun byte there => ?_, List.takeWhile_cons_of_neg (by simp), append_nil]
  exact decide_eq_true fun zero => name.terminated (zero ▸ there)

theorem IsDirent.lastByte : bytes.getLastD 0 = type := by
  obtain ⟨-, front, pad, eight, rfl⟩ := record
  rw [show front ++ le16Bytes (direntLength name) ++ (name.bytes ++ 0 :: (pad ++ [type])) =
    (front ++ le16Bytes (direntLength name) ++ (name.bytes ++ 0 :: pad)) ++ [type] by simp]
  exact List.getLastD_concat

end

theorem writeDirent_outside (memory : Memory) {dirp address : ℕ} (name : CString) (inode : Inode) (next : ℕ)
    (outside : address < dirp ∨ dirp + direntLength name ≤ address) :
    writeDirent memory dirp name inode next address = memory address := by
  have bounds := direntLength_bounds name
  unfold writeDirent offsetofDOff offsetofDReclen offsetofDName
  rw [write_outside (by rw [length_le16Bytes]; omega), write_outside (by rw [length_append]; simp; omega),
    write_outside (by rw [length_le32Bytes]; omega), write_outside (by simp; omega)]

theorem IsDirent.dirents (record : IsDirent name type bytes) (short : direntLength name < 65536) (rest : List UInt8) :
    dirents (bytes ++ rest) = bytes :: dirents rest := by
  refine records_append rest record.ne_nil ?_
  rw [record.reclen, record.length, Nat.mod_eq_of_lt short]

theorem IsDirent.readDirents_long (record : IsDirent name type bytes) (long : 65536 ≤ direntLength name)
    {found : List (List UInt8 × UInt8)} (reads : readDirents bytes = some found) : 2 ≤ found.length := by
  obtain ⟨whole, rfl⟩ := Option.ite_some_none_eq_some.mp reads
  rw [length_map]
  have size := record.reclen []
  rw [append_nil] at size
  have less : direntLength name % 65536 < direntLength name := Nat.lt_of_lt_of_le (Nat.mod_lt _ (by decide)) long
  rw [Fs.dirents, records] at whole ⊢
  split at whole
  · rename_i fits
    rw [if_pos fits]
    -- the first record is too short to make up the buffer
    cases others : records (fun rest => le16 rest offsetofDReclen) (bytes.drop (le16 bytes offsetofDReclen)) with
    | cons second rest => simp
    | nil =>
      rw [others, flatten_cons, flatten_nil, append_nil] at whole
      have length := congrArg List.length whole
      rw [List.length_take, size, record.length] at length
      omega
  · exact absurd whole.symm record.ne_nil

end Records

variable {entry : CString × ℕ}

section Listing
variable {d : Directory}

/-- A buffer holds one record for each entry, one behind the other. -/
def Directory.Encodes (d : Directory) (entries : List (CString × ℕ)) (bytes : List UInt8) : Prop :=
  ∃ dirents : List (List UInt8), bytes = dirents.flatten ∧
    List.Forall₂ (fun entry record => IsDirent entry.1 (dType (d.inode entry.2)) record) entries dirents

def direntsLength (entries : List (CString × ℕ)) : ℕ := (entries.map fun entry => direntLength entry.1).sum

variable {entries : List (CString × ℕ)}

theorem direntsLength_pos (some : entries ≠ []) : 0 < direntsLength entries := by
  cases entries with
  | nil => exact absurd rfl some
  | cons entry rest =>
    have bounds := direntLength_bounds entry.1
    unfold direntsLength
    rw [map_cons, sum_cons]
    omega

theorem Directory.Encodes.cons {record bytes : List UInt8} (first : IsDirent entry.1 (dType (d.inode entry.2)) record)
    (others : d.Encodes entries bytes) : d.Encodes (entry :: entries) (record ++ bytes) := by
  obtain ⟨dirents, rfl, each⟩ := others
  exact ⟨record :: dirents, rfl, .cons first each⟩

theorem Directory.Encodes.readDirents {bytes : List UInt8}
    (encoded : d.Encodes entries bytes) (short : ∀ entry ∈ entries, direntLength entry.1 < 65536) :
    readDirents bytes = some (entries.map fun entry => (entry.1.bytes, dType (d.inode entry.2))) := by
  obtain ⟨records, rfl, each⟩ := encoded
  have read : dirents records.flatten = records ∧ (records.map fun record =>
      ((record.drop offsetofDName).takeWhile (· ≠ 0), record.getLastD 0)) =
        entries.map fun entry => (entry.1.bytes, dType (d.inode entry.2)) := by
    induction each with
    | nil => exact ⟨records_nil, rfl⟩
    | cons first _ ih =>
      obtain ⟨whole, fields⟩ := ih fun entry there => short entry (List.mem_cons_of_mem _ there)
      rw [flatten_cons, first.dirents (short _ List.mem_cons_self), whole, map_cons, map_cons,
        fields, first.dName, first.lastByte]
      exact ⟨rfl, rfl⟩
  unfold Fs.readDirents
  rw [read.1, if_pos rfl, read.2]

/-- A call takes the entries that fit from those that are pending, and leaves the others. -/
structure Directory.Took (d : Directory) (offset : ℕ) (memory : Memory) (dirp count nread : ℕ)
    (taken rest : List (CString × ℕ)) (result : Except Errno ℕ) (filled : Memory) (last : ℕ) : Prop where
  pending : d.files.entriesFrom offset = taken ++ rest
  left : d.files.entriesFrom last = rest
  encoded : d.Encodes taken (read filled dirp (direntsLength taken))
  fits : direntsLength taken ≤ count
  full : ∀ entry ∈ rest.head?, count < direntsLength taken + direntLength entry.1
  frame : ∀ address, address < dirp ∨ dirp + count ≤ address → filled address = memory address
  unmoved : taken = [] → last = offset
  returned : result = if rest = [] ∨ nread + direntsLength taken ≠ 0 then .ok (nread + direntsLength taken)
    else .error .EINVAL

theorem Directory.Took.nothing {offset : ℕ} {memory : Memory} {dirp count nread : ℕ} {rest : List (CString × ℕ)}
    (pending : d.files.entriesFrom offset = rest) (full : ∀ entry ∈ rest.head?, count < direntLength entry.1) :
    d.Took offset memory dirp count nread [] rest (if rest = [] ∨ nread ≠ 0 then .ok nread else .error .EINVAL)
      memory offset where
  pending := pending
  left := pending
  encoded := ⟨[], rfl, .nil⟩
  fits := Nat.zero_le count
  full entry there := (Nat.zero_add _).symm ▸ full entry there
  frame _ _ := rfl
  unmoved _ := rfl
  returned := rfl

variable {result : Except Errno ℕ}

variable {taken rest : List (CString × ℕ)}

theorem Directory.Took.turn {offset next : ℕ} {memory filled : Memory} {dirp count nread last : ℕ}
    (first : d.files.entriesFrom offset = entry :: d.files.entriesFrom next) (room : direntLength entry.1 ≤ count)
    (others : d.Took next (writeDirent memory dirp entry.1 (d.inode entry.2) next) (dirp + direntLength entry.1) (count - direntLength entry.1) (nread + direntLength entry.1) taken rest result filled last) :
    d.Took offset memory dirp count nread (entry :: taken) rest result filled last := by
  have sum : direntsLength (entry :: taken) = direntLength entry.1 + direntsLength taken := sum_cons
  have fits := others.fits
  constructor
  case pending => rw [first, others.pending, cons_append]
  case left => exact others.left
  case fits => omega
  case full =>
    intro next there
    have full := others.full next there
    omega
  case encoded =>
    rw [sum, read_add]
    refine .cons ?_ others.encoded
    rw [read_congr fun address _ before => others.frame address (.inl before)]
    exact writeDirent_isDirent memory dirp entry.1 (d.inode entry.2) next
  case frame =>
    intro address outside
    rw [others.frame address (by omega), writeDirent_outside _ _ _ _ (by omega)]
  case unmoved => exact fun none => nomatch none
  case returned =>
    rw [others.returned, sum, Nat.add_assoc]

theorem getdentsLoop_took (fuel : ℕ) (iter : Hashtable.Iterator CString ℕ) (memory : Memory) (dirp count nread : ℕ)
    (enough : d.files.size - iter.i < fuel) :
    ∃ taken rest result filled last,
      getdentsLoop d fuel iter memory dirp count nread iter.i = some (result, filled, last) ∧
        d.Took iter.i memory dirp count nread taken rest result filled last := by
  induction fuel generalizing iter memory dirp count nread with
  | zero => cases enough
  | succ fuel ih =>
    unfold getdentsLoop
    rcases d.files.iterate_cases iter with ⟨⟨stopped, done⟩, none⟩ | ⟨i, above, inside, used, given, first⟩
    · rw [done]
      exact ⟨[], [], _, _, _, rfl, .nothing none fun _ there => nomatch there⟩
    · rw [given]
      dsimp only
      by_cases room : count < direntLength (d.files.table i).key
      · rw [if_pos room]
        refine ⟨[], _, _, memory, iter.i, ?_, .nothing first fun entry there => ?_⟩
        · split
          · rename_i some
            rw [if_pos (.inr some)]
          · rename_i none
            rw [if_neg (not_or.mpr ⟨List.cons_ne_nil _ _, none⟩)]
        · rw [List.head?_cons, Option.mem_some_iff] at there
          exact there ▸ room
      · rw [if_neg room]
        obtain ⟨taken, rest, result, filled, last, ran, took⟩ := ih
          ⟨i + 1, (d.files.table i).key, (d.files.table i).value⟩
          (writeDirent memory dirp (d.files.table i).key (d.inode (d.files.table i).value) (i + 1))
          (dirp + direntLength (d.files.table i).key) (count - direntLength (d.files.table i).key)
          (nread + direntLength (d.files.table i).key) (by dsimp only; omega)
        exact ⟨_, rest, result, filled, last, ran, took.turn first (Nat.not_lt.mp room)⟩

theorem ramfsGetdents_took (d : Directory) (offset : ℕ) (dirp : Memory) (count : ℕ) :
    ∃ taken rest result filled last, ramfsGetdents d offset dirp count = some (result, filled, last) ∧
      d.Took offset dirp 0 count 0 taken rest result filled last :=
  getdentsLoop_took (d.files.size + 1) ⟨offset, default, default⟩ dirp 0 count 0 (by dsimp only; omega)

/-- What a call reported in its buffer -/
def Report.buffer (report : Report) : List UInt8 :=
  match report.result with
  | .ok nread => read report.filled 0 nread
  | .error _ => []

/-- A call writes whole records inside its buffer, and stays at its offset when it fails. -/
structure Report.Safe (report : Report) : Prop where
  inside : ∀ address, report.count ≤ address → report.filled address = report.dirp address
  within : ∀ nread, report.result = .ok nread → nread ≤ report.count
  whole : (readDirents report.buffer).isSome
  refused : ∀ error, report.result = .error error → report.next = report.offset

/-- The names and types in the buffers of all calls -/
def contents : List Report → Option (List (List UInt8 × UInt8))
  | [] => some []
  | report :: rest => (readDirents report.buffer).bind fun found => (contents rest).map (found ++ ·)

/-- All calls from the start of the directory are safe, and give each entry once when the last one returns zero. -/
def Directory.ListsAll (d : Directory) : Prop :=
  ∀ calls, ∃ reports, d.listing 0 calls = some reports ∧ (∀ report ∈ reports, report.Safe) ∧
    (reports.getLast?.map Report.result = some (.ok 0) → ∃ found, contents reports = some found ∧
      (found.map Prod.fst).Nodup ∧ ∀ pair, pair ∈ found ↔
        ∃ name inode, d.files.Holds name inode ∧ pair = (name.bytes, (d.inode inode).direntType))

/-- The entries are none of block devices, and the lengths of their records fit in `d_reclen`. -/
def Directory.Listable (d : Directory) : Prop :=
  ∀ name inode, d.files.Holds name inode → direntLength name < 65536 ∧ (d.inode inode).flags ≠ S_IFBLK

theorem Directory.Took.buffer {offset count last : ℕ} {dirp filled : Memory}
    (took : d.Took offset dirp 0 count 0 taken rest result filled last) :
    (Report.mk offset dirp count result filled last).buffer = read filled 0 (direntsLength taken) := by
  unfold Report.buffer
  rw [took.returned]
  split
  · rename_i nread returned
    split at returned
    · obtain rfl := Except.ok.inj returned
      rw [Nat.zero_add]
    · cases returned
  · rename_i error returned
    split at returned
    · cases returned
    · rename_i neither
      rw [not_or, not_not, Nat.zero_add] at neither
      rw [neither.2]
      rfl

theorem Directory.Took.safe {offset count last : ℕ} {dirp filled : Memory}
    (took : d.Took offset dirp 0 count 0 taken rest result filled last)
    (short : ∀ entry ∈ taken, direntLength entry.1 < 65536) :
    (Report.mk offset dirp count result filled last).Safe := by
  have fits := took.fits
  constructor
  case inside => exact fun address beyond => took.frame address (.inr (by rwa [Nat.zero_add]))
  case whole =>
    rw [took.buffer, took.encoded.readDirents short]
    rfl
  case within =>
    intro nread returned
    dsimp only at returned
    rw [took.returned] at returned
    split at returned
    · obtain rfl := Except.ok.inj returned
      dsimp only
      omega
    · cases returned
  case refused =>
    intro error returned
    dsimp only at returned
    rw [took.returned] at returned
    split at returned
    · cases returned
    · rename_i neither
      refine took.unmoved (not_imp_comm.mp direntsLength_pos ?_)
      omega

theorem Directory.listing_short (d : Directory) (calls : List (Memory × ℕ)) (offset : ℕ)
    (short : ∀ entry ∈ d.files.entriesFrom offset, direntLength entry.1 < 65536) :
    ∃ reports taken rest, d.listing offset calls = some reports ∧ (∀ report ∈ reports, report.Safe) ∧
      d.files.entriesFrom offset = taken ++ rest ∧
      contents reports = some (taken.map fun entry => (entry.1.bytes, dType (d.inode entry.2))) ∧
      (reports.getLast?.map Report.result = some (.ok 0) → rest = []) := by
  induction calls generalizing offset with
  | nil => exact ⟨[], [], _, rfl, fun _ there => (nomatch there), rfl, rfl, fun none => nomatch none⟩
  | cons call calls ih =>
    obtain ⟨dirp, count⟩ := call
    obtain ⟨taken, rest, result, filled, next, called, took⟩ := ramfsGetdents_took d offset dirp count
    rw [took.pending] at short
    obtain ⟨reports, later, left, listed, safe, pending, read, done⟩ := ih next fun entry there =>
      short entry (List.mem_append_right _ (took.left ▸ there))
    have before := fun entry there => short entry (List.mem_append_left _ there)
    refine ⟨⟨offset, dirp, count, result, filled, next⟩ :: reports, taken ++ later, left, ?_, ?_, ?_, ?_, ?_⟩
    · unfold Directory.listing
      rw [called, Option.bind_some]
      dsimp only
      rw [listed]
      rfl
    · intro report there
      rcases mem_cons.mp there with rfl | there
      · exact took.safe before
      · exact safe report there
    · rw [took.pending, append_assoc, ← pending, took.left]
    · unfold contents
      rw [took.buffer, took.encoded.readDirents before, Option.bind_some, read, Option.map_some, List.map_append]
    · cases reports with
      | cons report reports => exact done
      | nil =>
        -- the last call took nothing, and nothing was left
        intro zero
        have zero : result = .ok 0 := Option.some.inj zero
        have returned := took.returned
        rw [zero] at returned
        split at returned
        · rename_i either
          have none := Except.ok.inj returned
          rw [Nat.zero_add] at none either
          have empty := either.resolve_right (not_not.mpr none.symm)
          rw [← took.left, pending, append_eq_nil_iff] at empty
          exact empty.2
        · cases returned

/-- Calls with a buffer for each pending entry, and one that finds nothing left -/
def callsFor (entries : List (CString × ℕ)) : List (Memory × ℕ) :=
  entries.map (fun entry => (fun _ => 0, direntLength entry.1)) ++ [(fun _ => 0, 0)]

theorem Directory.Took.first {offset last : ℕ} {dirp filled : Memory} {taken rest pending : List (CString × ℕ)}
    (took : d.Took offset dirp 0 (direntLength entry.1) 0 taken rest result filled last)
    (first : d.files.entriesFrom offset = entry :: pending) : taken = [entry] ∧ rest = pending := by
  have same := first.symm.trans took.pending
  cases taken with
  | nil =>
    have full := took.full entry (by rw [← nil_append rest, ← same]; rfl)
    rw [show direntsLength [] = 0 from rfl, Nat.zero_add] at full
    exact absurd full (Nat.lt_irrefl _)
  | cons other others =>
    obtain ⟨rfl, later⟩ := List.cons.inj same
    have fits := took.fits
    have sum : direntsLength (entry :: others) = direntLength entry.1 + direntsLength others := sum_cons
    have none : others = [] := not_imp_comm.mp direntsLength_pos (by omega)
    rw [none] at later ⊢
    exact ⟨rfl, later.symm⟩

theorem Directory.Encodes.length_readDirents {bytes : List UInt8} (encoded : d.Encodes [entry] bytes)
    {found : List (List UInt8 × UInt8)} (reads : Fs.readDirents bytes = some found) :
    1 ≤ found.length ∧ (65536 ≤ direntLength entry.1 → 2 ≤ found.length) := by
  by_cases short : direntLength entry.1 < 65536
  · rw [encoded.readDirents fun other there => List.eq_of_mem_singleton there ▸ short] at reads
    obtain rfl := Option.some.inj reads
    exact ⟨Nat.le_refl _, fun long => absurd short (Nat.not_lt.mpr long)⟩
  · obtain ⟨records, rfl, each⟩ := encoded
    obtain ⟨record, others, first, none, rfl⟩ := List.forall₂_cons_left_iff.mp each
    obtain rfl := List.forall₂_nil_left_iff.mp none
    rw [flatten_cons, flatten_nil, append_nil] at reads
    have two := first.readDirents_long (Nat.not_lt.mp short) reads
    exact ⟨by omega, fun _ => two⟩

theorem Directory.listing_each (d : Directory) (entries : List (CString × ℕ)) (offset : ℕ)
    (pending : d.files.entriesFrom offset = entries) :
    ∃ reports, d.listing offset (callsFor entries) = some reports ∧
      reports.getLast?.map Report.result = some (.ok 0) ∧
      ∀ found, contents reports = some found → entries.length ≤ found.length ∧
        ((∃ entry ∈ entries, 65536 ≤ direntLength entry.1) → entries.length < found.length) := by
  induction entries generalizing offset with
  | nil =>
    obtain ⟨taken, rest, result, filled, next, called, took⟩ := ramfsGetdents_took d offset (fun _ => 0) 0
    obtain ⟨rfl, rfl⟩ := append_eq_nil_iff.mp (took.pending.symm.trans pending)
    refine ⟨[⟨offset, fun _ => 0, 0, result, filled, next⟩], ?_, ?_, fun found _ => ⟨Nat.zero_le _, ?_⟩⟩
    · rw [callsFor, List.map_nil, nil_append]
      unfold Directory.listing
      rw [called]
      rfl
    · rw [took.returned]
      rfl
    · rintro ⟨entry, there, -⟩
      cases there
  | cons entry entries ih =>
    obtain ⟨taken, rest, result, filled, next, called, took⟩ :=
      ramfsGetdents_took d offset (fun _ => 0) (direntLength entry.1)
    obtain ⟨rfl, rfl⟩ := took.first pending
    obtain ⟨reports, listed, done, count⟩ := ih next took.left
    refine ⟨⟨offset, fun _ => 0, direntLength entry.1, result, filled, next⟩ :: reports, ?_, ?_, ?_⟩
    · rw [callsFor, map_cons, cons_append]
      unfold Directory.listing
      rw [called, Option.bind_some]
      dsimp only
      rw [← callsFor, listed]
      rfl
    · cases reports with
      | nil => cases done
      | cons report reports => exact done
    · intro found read
      unfold contents at read
      rw [took.buffer] at read
      obtain ⟨first, reads, read⟩ := Option.bind_eq_some_iff.mp read
      obtain ⟨others, readOthers, rfl⟩ := Option.map_eq_some_iff.mp read
      have ⟨one, two⟩ := took.encoded.length_readDirents reads
      have ⟨rest, more⟩ := count others readOthers
      rw [length_append, List.length_cons]
      refine ⟨by omega, ?_⟩
      rintro ⟨long, there, length⟩
      rcases mem_cons.mp there with rfl | there
      · have := two length
        omega
      · have := more ⟨long, there, length⟩
        omega

/-- The entries of a directory are inodes of the four types that `ramfs_mkdir` and `ramfs_mknod` make. -/
structure Directory.Sound (d : Directory) : Prop where
  refined : ∃ map, d.files.Refines map
  typed : ∀ name inode, d.files.Holds name inode →
    inode < d.next ∧ (d.inode inode).flags ∈ [S_IFDIR, S_IFREG, S_IFCHR, S_IFBLK]

theorem Directory.sound_empty : Directory.empty.Sound where
  refined := ⟨_, Hashtable.refines_create stringKeys⟩
  typed name inode holds := nomatch ((Hashtable.refines_create stringKeys).holds_iff name inode).mp holds

theorem Directory.Sound.create {name : CString} {inode : Inode} (sound : d.Sound)
    (typed : inode.flags ∈ [S_IFDIR, S_IFREG, S_IFCHR, S_IFBLK]) {next : Directory}
    (created : d.create name inode = some next) : next.Sound := by
  obtain ⟨files, added, rfl⟩ := Option.map_eq_some_iff.mp created
  obtain ⟨map, refined⟩ := sound.refined
  have later := refined.add added
  refine ⟨⟨_, later⟩, fun other value holds => ?_⟩
  have mapped := (later.holds_iff other value).mp holds
  dsimp only
  by_cases same : other = name
  · subst other
    rw [update_self] at mapped
    obtain rfl := Option.some.inj mapped
    rw [update_self]
    exact ⟨Nat.lt_succ_self _, typed⟩
  · rw [update_of_ne same] at mapped
    obtain ⟨less, kept⟩ := sound.typed other value ((refined.holds_iff other value).mpr mapped)
    rw [update_of_ne (Nat.ne_of_lt less)]
    exact ⟨Nat.lt_succ_of_lt less, kept⟩

/-- A new entry keeps the directory sound. -/
theorem Directory.Sound.make {call : Make} (sound : d.Sound) {next : Directory} (made : d.make call = some next) :
    next.Sound := by
  cases call with
  | ramfsMkdir name =>
    obtain ⟨found, -, made⟩ := Option.bind_eq_some_iff.mp made
    split at made
    · exact Option.some.inj made ▸ sound
    · exact sound.create (by decide) made
  | ramfsMknod name mode dev =>
    obtain ⟨found, -, made⟩ := Option.bind_eq_some_iff.mp made
    split at made
    · exact Option.some.inj made ▸ sound
    split at made
    · exact sound.create (by simp) made
    split at made
    · exact sound.create (by simp) made
    split at made
    · exact sound.create (by simp) made
    · exact Option.some.inj made ▸ sound
  | sysMount name =>
    obtain ⟨found, -, rfl⟩ := Option.map_eq_some_iff.mp made
    split
    · refine ⟨sound.refined, fun other value holds => ?_⟩
      obtain ⟨less, typed⟩ := sound.typed other value holds
      refine ⟨less, ?_⟩
      dsimp only
      by_cases same : value = found
      · rw [same, update_self]
        decide
      · rw [update_of_ne same]
        exact typed
    · exact sound

theorem dType_eq_iff {inode : Inode} (typed : inode.flags ∈ [S_IFDIR, S_IFREG, S_IFCHR, S_IFBLK]) :
    dType inode = inode.direntType ↔ inode.flags ≠ S_IFBLK := by
  have each : ∀ flags ∈ [S_IFDIR, S_IFREG, S_IFCHR, S_IFBLK],
      dType ⟨flags, 0⟩ = Inode.direntType ⟨flags, 0⟩ ↔ flags ≠ S_IFBLK := by decide
  exact each inode.flags typed

/-- A directory is listed whole exactly when its names and types can be. -/
theorem Directory.Sound.listsAll_iff (sound : d.Sound) : d.ListsAll ↔ d.Listable := by
  obtain ⟨map, refined⟩ := sound.refined
  have distinct := refined.wellFormed.nodup_entriesFrom 0
  have holds (entry : CString × ℕ) : entry ∈ d.files.entriesFrom 0 ↔ d.files.Holds entry.1 entry.2 :=
    Hashtable.mem_entries
  -- no two entries have the bytes of one name
  have names : ((d.files.entriesFrom 0).map fun entry => entry.1.bytes).Nodup := by
    rw [← comp_def, ← map_map]
    refine distinct.map fun first second same => ?_
    cases first
    cases second
    cases same
    rfl
  constructor
  · intro lists
    obtain ⟨reports, listed, done, count⟩ := d.listing_each _ 0 rfl
    obtain ⟨same, sameListed, -, all⟩ := lists (callsFor (d.files.entriesFrom 0))
    obtain rfl := Option.some.inj (sameListed.symm.trans listed)
    obtain ⟨found, read, once, exact⟩ := all done
    -- the pairs of the entries and the pairs that were found are the same
    have length : found.length = (d.files.entriesFrom 0).length := by
      have pairs : ((d.files.entriesFrom 0).map fun entry =>
          (entry.1.bytes, (d.inode entry.2).direntType)).Nodup := by
        refine List.Nodup.of_map Prod.fst ?_
        rw [map_map]
        exact names
      have perm := (List.perm_ext_iff_of_nodup (List.Nodup.of_map _ once) pairs).mpr fun pair => by
        rw [exact, mem_map]
        constructor
        · rintro ⟨name, inode, held, rfl⟩
          exact ⟨(name, inode), (holds _).mpr held, rfl⟩
        · rintro ⟨entry, there, rfl⟩
          exact ⟨entry.1, entry.2, (holds entry).mp there, rfl⟩
      rw [perm.length_eq, length_map]
    have short : ∀ entry ∈ d.files.entriesFrom 0, direntLength entry.1 < 65536 := by
      intro entry there
      by_contra long
      have more := (count found read).2 ⟨entry, there, Nat.not_lt.mp long⟩
      omega
    obtain ⟨others, taken, rest, again, -, pending, readAll, last⟩ := d.listing_short _ 0 short
    obtain rfl := Option.some.inj (again.symm.trans listed)
    rw [last done, append_nil] at pending
    obtain rfl := Option.some.inj (readAll.symm.trans read)
    intro name inode held
    have there := (holds (name, inode)).mpr held
    refine ⟨short _ there, (dType_eq_iff (sound.typed name inode held).2).mp ?_⟩
    obtain ⟨other, value, heldOther, equal⟩ := (exact _).mp (mem_map.mpr ⟨_, pending ▸ there, rfl⟩)
    obtain ⟨sameName, sameType⟩ := Prod.mk.inj equal
    have sameEntry := List.inj_on_of_nodup_map names there ((holds (other, value)).mpr heldOther) sameName
    cases sameEntry
    exact sameType
  · intro listable calls
    have short : ∀ entry ∈ d.files.entriesFrom 0, direntLength entry.1 < 65536 := fun entry there =>
      (listable _ _ ((holds entry).mp there)).1
    have typed : ∀ entry ∈ d.files.entriesFrom 0, dType (d.inode entry.2) = (d.inode entry.2).direntType :=
      fun entry there => (dType_eq_iff (sound.typed _ _ ((holds entry).mp there)).2).mpr
        (listable _ _ ((holds entry).mp there)).2
    obtain ⟨reports, taken, rest, listed, safe, pending, read, last⟩ := d.listing_short calls 0 short
    refine ⟨reports, listed, safe, fun done => ⟨_, read, ?_, fun pair => ?_⟩⟩
    · rw [map_map]
      rw [pending, last done, append_nil] at names
      exact names
    · rw [last done, append_nil] at pending
      rw [mem_map, ← pending]
      constructor
      · rintro ⟨entry, there, rfl⟩
        exact ⟨entry.1, entry.2, (holds entry).mp there, by rw [typed entry there]⟩
      · rintro ⟨name, inode, held, rfl⟩
        have there := (holds (name, inode)).mpr held
        exact ⟨(name, inode), there, by rw [typed _ there]⟩

/-- A directory that `ramfs_mkdir`, `ramfs_mknod` and `sys_mount` have made is listed completely, with all types, if
and only if none of its entries is a block device and the length of each record fits in an `unsigned short`. -/
theorem ramfs_getdents_complete (calls : List Make) (d : Directory)
    (made : run Directory.make .empty calls = some d) : d.ListsAll ↔ d.Listable :=
  (run_invariant Directory.Sound Directory.sound_empty made fun sound => sound.make).listsAll_iff

/-- A name that is not in a directory can be created there. -/
theorem Directory.creates {map : CString → Option ℕ} (refined : d.files.Refines map) (clean : d.files.NoTombstone)
    (name : CString) (absent : map name = none) (inode : Inode) :
    d.files.get name = some 0 ∧ ∃ next, d.create name inode = some next ∧ next.files.NoTombstone ∧
      next.files.Refines (update map name (some d.next)) ∧ next.inode = update d.inode d.next inode := by
  have load := refined.load
  have fresh := refined.wellFormed.hasFresh_of_noTombstone clean (by omega)
  obtain ⟨files, added, clean, later⟩ := refined.add_returns clean name d.next
  refine ⟨?_, _, Option.map_eq_some_iff.mpr ⟨files, added, rfl⟩, clean, later, rfl⟩
  rw [refined.get_returns fresh, absent]
  rfl

theorem Directory.make_device {name : CString} {dev : ℕ} (free : d.files.get name = some 0) :
    d.make (.ramfsMknod name S_IFCHR dev) = d.create name ⟨S_IFCHR, dev⟩ := by
  rw [Directory.make, free]
  rfl

/-- A directory with two character devices in it is listed completely. -/
theorem ramfs_getdents_complete_device :
    ∃ d, run Directory.make .empty
      [.ramfsMknod ⟨[97], by decide⟩ S_IFCHR 3, .ramfsMknod ⟨[98], by decide⟩ S_IFCHR 4] = some d ∧ d.ListsAll := by
  have empty : Directory.empty.files.Refines fun _ => none := Hashtable.refines_create stringKeys
  obtain ⟨free, one, created, clean, refined, first⟩ :=
    Directory.creates empty (fun _ => rfl) ⟨[97], by decide⟩ rfl ⟨S_IFCHR, 3⟩
  obtain ⟨free', d, created', -, refined', second⟩ :=
    Directory.creates refined clean ⟨[98], by decide⟩ rfl ⟨S_IFCHR, 4⟩
  have made : run Directory.make .empty
      [.ramfsMknod ⟨[97], by decide⟩ S_IFCHR 3, .ramfsMknod ⟨[98], by decide⟩ S_IFCHR 4] = some d := by
    rw [run_cons, Directory.make_device free, created, Option.bind_some, run_cons, Directory.make_device free', created']
    rfl
  refine ⟨d, made, (ramfs_getdents_complete _ d made).mpr fun name inode held => ?_⟩
  have mapped := (refined'.holds_iff name inode).mp held
  have next : one.next = 2 := by
    obtain ⟨files, -, rfl⟩ := Option.map_eq_some_iff.mp created
    rfl
  rw [second, first, next]
  rw [update_apply] at mapped
  split at mapped
  · rename_i same
    rw [same, ← Option.some.inj mapped, next, update_self]
    decide
  · rw [update_apply] at mapped
    split at mapped
    · rename_i same
      obtain rfl : 1 = inode := Option.some.inj mapped
      rw [same, update_of_ne (by decide)]
      decide +kernel
    · cases mapped

/-- A block device is listed as a directory. -/
theorem ramfs_getdents_block_device :
    ∃ d, run Directory.make .empty [.ramfsMknod ⟨[98], by decide⟩ S_IFBLK 0] = some d ∧ ¬ d.ListsAll := by
  have empty : Directory.empty.files.Refines fun _ => none := Hashtable.refines_create stringKeys
  obtain ⟨free, d, created, -, refined, device⟩ :=
    Directory.creates empty (fun _ => rfl) ⟨[98], by decide⟩ rfl ⟨S_IFBLK, 0⟩
  have sound := Directory.sound_empty.create (by decide) created
  refine ⟨d, ?_, fun lists => ?_⟩
  · rw [run_cons, Directory.make, free]
    exact congrArg (fun made => made.bind fun next => run Directory.make next []) created
  · have listable := sound.listsAll_iff.mp lists _ _ ((refined.holds_iff _ _).mpr (update_self ..))
    rw [device, update_self] at listable
    exact listable.2 rfl

end Listing

end Phabos.Fs
