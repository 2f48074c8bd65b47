import Phabos.Proof.Greybus.ManifestRelease

namespace Phabos.Manifest
open Library List Option

/-- The header has the size and a supported version, and valid descriptors fill the rest. -/
structure WellFormedData (data : List UInt8) : Prop where
  size : le16 data 0 = data.length
  version : (byteAt data 2).toNat ≤ versionMajor
  descriptors : ∃ records : List (List UInt8), data.drop 4 = records.flatten ∧ ∀ record ∈ records, Valid record

/-- What `manifest_parse` promises: it returns, true only for a well-formed manifest, and false with the list of cports
as it was -/
structure Promised (data : List UInt8) (cports : List GbCport) (result : Option (Bool × List GbCport)) : Prop where
  returns : result ≠ none
  accepts : ∀ parsed, result = some (true, parsed) → WellFormedData data
  refuses : ∀ parsed, result = some (false, parsed) → parsed = cports

/-- A string header in the last four bytes, whose length would be behind them -/
structure CutString (desc : List UInt8) : Prop where
  last : desc.length = 4
  size : descSize desc ≤ 4
  type : descType desc = typeString

/-- The valid descriptors of a manifest up to the first one that is not, and the bytes from there on -/
structure Split (data : List UInt8) (records : List (List UInt8)) (rest : List UInt8) : Prop where
  whole : data = records.flatten ++ rest
  valid : ∀ record ∈ records, Valid record
  refused : ¬∃ record more, rest = record ++ more ∧ Valid record

def cportsIn (records : List (List UInt8)) : List (List UInt8) := records.filter fun desc => descType desc = typeCport

/-- There is memory for each of some more cports. -/
def HasMemory (malloc : ℕ → Bool) (count more : ℕ) : Prop := ∀ i < more, malloc (count + i) = true

instance (malloc : ℕ → Bool) (count more : ℕ) : Decidable (HasMemory malloc count more) :=
  inferInstanceAs (Decidable (∀ i < more, _))

/-- The header is refused. Or each cport has memory, where all descriptors are valid, or there is no cport before the
first one that is not, which is no cut string. -/
def Parsable (malloc : ℕ → Bool) (data : List UInt8) (cports : List GbCport) : Prop :=
  data.length ≤ 4 ∨ le16 data 0 ≠ data.length ∨ versionMajor < (byteAt data 2).toNat ∨
    ∃ records rest, Split (data.drop 4) records rest ∧ HasMemory malloc cports.length (cportsIn records).length ∧
      (rest ≠ [] → cportsIn records = [] ∧ ¬CutString rest)

section Descriptor
variable {gDeviceId : Int} {malloc : ℕ → Bool} {desc record rest : List UInt8} {cports : List GbCport}

theorem readByte_inside {offset : ℕ} (inside : offset < desc.length) :
    readByte desc offset = some (byteAt desc offset) := by
  unfold readByte byteAt
  rw [List.getElem?_eq_getElem inside, getD_eq_getElem _ _ inside]

theorem readLe16_inside {offset : ℕ} (inside : offset + 1 < desc.length) :
    readLe16 desc offset = some (le16 desc offset) := by
  unfold readLe16
  rw [readByte_inside (Nat.lt_of_succ_lt inside), readByte_inside inside]
  rfl

theorem allocCportReads_inside (long : 8 ≤ desc.length) :
    allocCportReads gDeviceId malloc desc cports =
      if malloc cports.length then some (allocCport (entryOf gDeviceId desc) cports) else none := by
  unfold allocCportReads
  rw [readLe16_inside (by omega), readByte_inside (by omega)]
  rfl

/-- A cport descriptor for which `identify_descriptor` allocates a cport -/
structure NewCport (desc : List UInt8) : Prop where
  inside : descSize desc ≤ desc.length
  type : descType desc = typeCport
  long : 8 ≤ descSize desc

theorem identifyDescriptor_known {expected : ℕ} (header : ¬desc.length < 4) (inside : ¬desc.length < descSize desc)
    (known : expectedSize desc = some expected) :
    identifyDescriptor gDeviceId false desc cports = checkSize (descSize desc) expected
      (if descType desc = typeCport ∧ expected ≤ descSize desc then allocCport (entryOf gDeviceId desc) cports
        else cports) := by
  unfold identifyDescriptor
  rw [if_neg header, if_neg inside, known]
  rfl

theorem identifyDescriptorReads_eq (uncut : ¬CutString desc) (memory : NewCport desc → malloc cports.length = true) :
    identifyDescriptorReads gDeviceId malloc desc cports = some (identifyDescriptor gDeviceId false desc cports) := by
  unfold identifyDescriptorReads
  by_cases header : desc.length < 4
  · unfold identifyDescriptor
    rw [if_pos header, if_pos header]
  have size : readLe16 desc 0 = some (descSize desc) := readLe16_inside (by omega)
  rw [if_neg header, size, bind_some]
  by_cases inside : desc.length < descSize desc
  · unfold identifyDescriptor
    rw [if_pos inside, if_neg header, if_pos inside]
  have type : readByte desc 2 = some (descType desc) := readByte_inside (by omega)
  rw [if_neg inside, type, bind_some]
  -- A descriptor that is no cport leaves the list to `checkSize`.
  have plain {expected : ℕ} (known : expectedSize desc = some expected) (other : descType desc ≠ typeCport) :
      identifyDescriptor gDeviceId false desc cports = checkSize (descSize desc) expected cports := by
    rw [identifyDescriptor_known header inside known, if_neg (other ·.1)]
  by_cases isString : descType desc = typeString
  · have five : 4 < desc.length := by
      by_contra four
      exact uncut ⟨by omega, by omega, isString⟩
    rw [if_pos isString, readByte_inside five, plain (if_pos isString) (isString ▸ by decide)]
    rfl
  by_cases isInterface : descType desc = typeInterface
  · have known : expectedSize desc = some (4 + 4) := (if_neg isString).trans (if_pos isInterface)
    rw [if_neg isString, if_pos isInterface, plain known (isInterface ▸ by decide)]
  by_cases isBundle : descType desc = typeBundle
  · have known : expectedSize desc = some (4 + 4) :=
      (if_neg isString).trans ((if_neg isInterface).trans (if_pos isBundle))
    rw [if_neg isString, if_neg isInterface, if_pos isBundle, plain known (isBundle ▸ by decide)]
  rw [if_neg isString, if_neg isInterface, if_neg isBundle]
  by_cases isCport : descType desc = typeCport
  · have known : expectedSize desc = some (4 + 4) :=
      (if_neg isString).trans ((if_neg isInterface).trans ((if_neg isBundle).trans (if_pos isCport)))
    rw [if_pos isCport, identifyDescriptor_known header inside known]
    by_cases long : 4 + 4 ≤ descSize desc
    · rw [if_pos long, if_pos ⟨isCport, long⟩, allocCportReads_inside (by omega),
        if_pos (memory ⟨Nat.le_of_not_lt inside, isCport, long⟩), map_some]
    · rw [if_neg long, if_neg (long ·.2)]
  · have unknown : expectedSize desc = none :=
      (if_neg isString).trans ((if_neg isInterface).trans ((if_neg isBundle).trans (if_neg isCport)))
    unfold identifyDescriptor
    rw [if_neg isCport, if_neg header, if_neg inside, unknown]

theorem identifyDescriptorReads_cut (cut : CutString desc) :
    identifyDescriptorReads gDeviceId malloc desc cports = none := by
  have last := cut.last
  have type : readByte desc 2 = some typeString := (readByte_inside (by omega)).trans (congrArg some cut.type)
  have size : readLe16 desc 0 = some (descSize desc) := readLe16_inside (by omega)
  have inside : ¬desc.length < descSize desc := Nat.not_lt.mpr (last ▸ cut.size)
  have outside : readByte desc 4 = none := List.getElem?_eq_none (Nat.le_of_eq last)
  unfold identifyDescriptorReads
  rw [if_neg (by omega), size, bind_some, if_neg inside, type, bind_some, if_pos rfl, outside]
  rfl

theorem identifyDescriptorReads_full (new : NewCport desc) (full : malloc cports.length = false) :
    identifyDescriptorReads gDeviceId malloc desc cports = none := by
  have long := new.long
  have inside := new.inside
  have type : readByte desc 2 = some typeCport := (readByte_inside (by omega)).trans (congrArg some new.type)
  have size : readLe16 desc 0 = some (descSize desc) := readLe16_inside (by omega)
  unfold identifyDescriptorReads
  rw [if_neg (by omega), size, bind_some, if_neg (Nat.not_lt.mpr inside), type, bind_some,
    if_neg (by decide), if_neg (by decide), if_neg (by decide), if_pos rfl, if_pos long,
    allocCportReads_inside (by omega), full]
  rfl

theorem NewCport.accepted (new : NewCport desc) : ∃ record more, desc = record ++ more ∧ Valid record := by
  have long := new.long
  have inside := new.inside
  have known : expectedSize desc = some (4 + 4) := by
    unfold expectedSize
    rw [new.type]
    rfl
  refine @identifyDescriptor_pos desc 0 false [] ?_
  rw [identifyDescriptor_known (by omega) (by omega) known, if_pos ⟨new.type, long⟩]
  unfold checkSize
  rw [if_neg (by omega)]
  dsimp only
  omega

theorem identifyDescriptor_refused (refused : ¬∃ record more, desc = record ++ more ∧ Valid record) :
    (identifyDescriptor gDeviceId false desc cports).1 ≤ 0 ∧
      (identifyDescriptor gDeviceId false desc cports).2 = cports := by
  have notNew : ¬NewCport desc := fun new => refused new.accepted
  refine ⟨Int.not_lt.mp fun accepted => refused (identifyDescriptor_pos accepted), ?_⟩
  by_cases header : desc.length < 4
  · unfold identifyDescriptor
    rw [if_pos header]
  by_cases inside : desc.length < descSize desc
  · unfold identifyDescriptor
    rw [if_neg header, if_pos inside]
  match known : expectedSize desc with
  | none =>
    unfold identifyDescriptor
    rw [if_neg header, if_neg inside, known]
  | some expected =>
    have long := eight_le_expectedSize expected known
    have same : ¬(descType desc = typeCport ∧ expected ≤ descSize desc) :=
      fun both => notNew ⟨Nat.le_of_not_lt inside, both.1, Nat.le_trans long both.2⟩
    rw [identifyDescriptor_known header inside known, if_neg same]
    unfold checkSize
    split <;> rfl

theorem newCport_append (valid : Valid record) : NewCport (record ++ rest) ↔ descType record = typeCport := by
  have long := valid.length
  have fields : SameFields (record ++ rest) record := sameFields long
  have size : descSize (record ++ rest) = record.length := fields.size.trans valid.size
  constructor
  · intro new
    exact fields.type.symm.trans new.type
  · intro cport
    refine ⟨?_, fields.type.trans cport, size ▸ long⟩
    rw [size, length_append]
    exact Nat.le_add_right _ _

theorem Valid.uncut (valid : Valid record) : ¬CutString (record ++ rest) := by
  intro cut
  have long := valid.length
  have last := cut.last
  rw [length_append] at last
  omega

end Descriptor

section Loop
variable {gDeviceId : Int} {malloc : ℕ → Bool} {desc rest : List UInt8} {records : List (List UInt8)}
  {cports : List GbCport}

theorem hasMemory_succ {count more : ℕ} :
    HasMemory malloc count (more + 1) ↔ malloc count = true ∧ HasMemory malloc (count + 1) more := by
  constructor
  · intro all
    refine ⟨all 0 (Nat.succ_pos more), fun i less => ?_⟩
    rw [Nat.add_assoc, Nat.add_comm 1]
    exact all (i + 1) (Nat.succ_lt_succ less)
  · rintro ⟨first, others⟩ i less
    match i with
    | 0 => exact first
    | i + 1 =>
      rw [Nat.add_comm i, ← Nat.add_assoc]
      exact others i (Nat.lt_of_succ_lt_succ less)

variable {record : List UInt8}

theorem manifestParseLoopReads_step (valid : Valid record) {next : List GbCport}
    (accepted : identifyDescriptorReads gDeviceId malloc (record ++ rest) cports = some ((record.length : Int), next)) :
    manifestParseLoopReads gDeviceId malloc (record ++ rest) cports =
      manifestParseLoopReads gDeviceId malloc rest next := by
  have long := valid.length
  have nonempty : record ++ rest ≠ [] := by
    refine ne_nil_of_length_pos ?_
    rw [length_append]
    omega
  rw [manifestParseLoopReads, if_neg nonempty, accepted]
  dsimp only
  rw [if_neg (by omega), Int.toNat_natCast, drop_left]

theorem manifestParseLoopReads_cons (valid : Valid record) :
    manifestParseLoopReads gDeviceId malloc (record ++ rest) cports =
      if descType record = typeCport then
        if malloc cports.length then
          manifestParseLoopReads gDeviceId malloc rest (cports ++ [entryOf gDeviceId record])
        else none
      else manifestParseLoopReads gDeviceId malloc rest cports := by
  have accepted (memory : NewCport (record ++ rest) → malloc cports.length = true) :
      identifyDescriptorReads gDeviceId malloc (record ++ rest) cports =
        some ((record.length : Int), applyDescriptor gDeviceId false cports record) := by
    rw [identifyDescriptorReads_eq valid.uncut memory, identifyDescriptor_valid valid]
  by_cases cport : descType record = typeCport
  · rw [if_pos cport]
    by_cases memory : malloc cports.length = true
    · have next : applyDescriptor gDeviceId false cports record = cports ++ [entryOf gDeviceId record] := if_pos cport
      rw [if_pos memory, manifestParseLoopReads_step valid (accepted fun _ => memory), next]
    · have long := valid.length
      have nonempty : record ++ rest ≠ [] := by
        refine ne_nil_of_length_pos ?_
        rw [length_append]
        omega
      rw [if_neg memory, manifestParseLoopReads, if_neg nonempty,
        identifyDescriptorReads_full ((newCport_append valid).mpr cport) (Bool.eq_false_of_not_eq_true memory)]
  · have plain : applyDescriptor gDeviceId false cports record = cports := if_neg cport
    have noNew : NewCport (record ++ rest) → malloc cports.length = true :=
      fun new => absurd ((newCport_append valid).mp new) cport
    rw [if_neg cport, manifestParseLoopReads_step valid (accepted noNew), plain]

theorem cportsIn_cport (cport : descType record = typeCport) :
    cportsIn (record :: records) = record :: cportsIn records :=
  filter_cons_of_pos (decide_eq_true cport)

theorem cportsIn_plain (other : descType record ≠ typeCport) :
    cportsIn (record :: records) = cportsIn records :=
  filter_cons_of_neg fun same => other (of_decide_eq_true same)

/-- With memory for their cports the loop comes behind the valid descriptors. Without it the loop writes one that was
not allocated. -/
theorem manifestParseLoopReads_flatten (valid : ∀ record ∈ records, Valid record) :
    manifestParseLoopReads gDeviceId malloc (records.flatten ++ rest) cports =
      if HasMemory malloc cports.length (cportsIn records).length then
        manifestParseLoopReads gDeviceId malloc rest (cports ++ (cportsIn records).map (entryOf gDeviceId))
      else none := by
  induction records generalizing cports with
  | nil =>
    have nothing : HasMemory malloc cports.length (cportsIn []).length := fun i less => absurd less (Nat.not_lt_zero i)
    rw [if_pos nothing]
    exact congrArg _ (append_nil cports).symm
  | cons record records ih =>
    have others : ∀ other ∈ records, Valid other := fun other there => valid other (mem_cons_of_mem _ there)
    rw [flatten_cons, append_assoc, manifestParseLoopReads_cons (valid record mem_cons_self)]
    by_cases cport : descType record = typeCport
    · have next : (cports ++ [entryOf gDeviceId record]).length = cports.length + 1 := length_append
      rw [cportsIn_cport cport, if_pos cport, ih others, next, map_cons, append_assoc, singleton_append,
        length_cons]
      by_cases first : malloc cports.length = true
      · rw [if_pos first]
        exact if_congr (by rw [hasMemory_succ, and_iff_right first]) rfl rfl
      · rw [if_neg first, if_neg fun all => first (hasMemory_succ.mp all).1]
    · rw [cportsIn_plain cport, if_neg cport, ih others]

theorem manifestParseLoopReads_rest (refused : ¬∃ record more, rest = record ++ more ∧ Valid record) :
    (rest = [] → manifestParseLoopReads gDeviceId malloc rest cports = some (true, cports)) ∧
      (CutString rest → manifestParseLoopReads gDeviceId malloc rest cports = none) ∧
      (rest ≠ [] → ¬CutString rest → manifestParseLoopReads gDeviceId malloc rest cports = some (false, cports)) := by
  refine ⟨fun empty => ?_, fun cut => ?_, fun nonempty uncut => ?_⟩
  · rw [manifestParseLoopReads, if_pos empty]
  · have nonempty : rest ≠ [] := ne_nil_of_length_pos (cut.last ▸ by decide)
    rw [manifestParseLoopReads, if_neg nonempty, identifyDescriptorReads_cut cut]
  · have read : identifyDescriptorReads gDeviceId malloc rest cports =
        some (identifyDescriptor gDeviceId false rest cports) :=
      identifyDescriptorReads_eq uncut fun new => absurd new.accepted refused
    have negative : (identifyDescriptor gDeviceId false rest cports).1 ≤ 0 := (identifyDescriptor_refused refused).1
    rw [manifestParseLoopReads, if_neg nonempty, read]
    dsimp only
    rw [if_pos negative, (identifyDescriptor_refused refused).2]

/-- The loop takes the valid records and goes on behind them. -/
theorem Split.behind (split : Split desc records rest) (gDeviceId : Int)
    (memory : HasMemory malloc cports.length (cportsIn records).length) :
    manifestParseLoopReads gDeviceId malloc desc cports =
      manifestParseLoopReads gDeviceId malloc rest (cports ++ (cportsIn records).map (entryOf gDeviceId)) := by
  rw [split.whole, manifestParseLoopReads_flatten split.valid, if_pos memory]

/-- Any bytes are valid records and a rest that is not one. -/
theorem exists_split (desc : List UInt8) : ∃ records rest, Split desc records rest := by
  induction length : desc.length using Nat.strongRecOn generalizing desc with
  | _ length ih =>
    by_cases accepted : ∃ record more, desc = record ++ more ∧ Valid record
    · obtain ⟨record, more, rfl, valid⟩ := accepted
      have long := valid.length
      rw [length_append] at length
      obtain ⟨records, rest, split⟩ := ih more.length (by omega) more rfl
      refine ⟨record :: records, rest, ?_, forall_mem_cons.mpr ⟨valid, split.valid⟩, split.refused⟩
      rw [split.whole, flatten_cons, append_assoc]
    · exact ⟨[], desc, rfl, nofun, accepted⟩

end Loop

section Parse
variable {gDeviceId : Int} {malloc : ℕ → Bool} {data : List UInt8} {cports : List GbCport}

theorem manifestParseReads_refused (refused : data.length ≤ 4 ∨ le16 data 0 ≠ data.length ∨
    versionMajor < (byteAt data 2).toNat) :
    manifestParseReads gDeviceId malloc data cports = some (false, cports) := by
  unfold manifestParseReads
  by_cases short : data.length ≤ 4
  · rw [if_pos short]
  rw [if_neg short, readLe16_inside (by omega), bind_some]
  by_cases size : le16 data 0 ≠ data.length
  · rw [if_pos size]
  rw [if_neg size, readByte_inside (by omega), bind_some, if_pos ((refused.resolve_left short).resolve_left size)]

theorem manifestParseReads_accepted (long : 4 < data.length) (size : le16 data 0 = data.length)
    (version : (byteAt data 2).toNat ≤ versionMajor) :
    manifestParseReads gDeviceId malloc data cports =
      manifestParseLoopReads gDeviceId malloc (data.drop 4) cports := by
  unfold manifestParseReads
  rw [if_neg (by omega), readLe16_inside (by omega), bind_some, if_neg (not_not_intro size),
    readByte_inside (by omega), bind_some, if_neg (Nat.not_lt.mpr version)]

end Parse

/-- A parse of a manifest reads inside it, accepts a well-formed one only and refuses without a trace, exactly when its
header is refused, all its descriptors are valid and their cports have memory, or the first one that is not valid comes
before any cport and does not have its string behind the end. -/
theorem manifest_parse_atomic (gDeviceId : Int) (malloc : ℕ → Bool) (data : List UInt8) (cports : List GbCport) :
    Promised data cports (manifestParseReads gDeviceId malloc data cports) ↔ Parsable malloc data cports := by
  by_cases refused : data.length ≤ 4 ∨ le16 data 0 ≠ data.length ∨ versionMajor < (byteAt data 2).toNat
  · refine iff_of_true ?_ ?_
    · rw [manifestParseReads_refused refused]
      exact ⟨nofun, nofun, fun parsed same => (Prod.mk.inj (Option.some.inj same)).2.symm⟩
    · rcases refused with short | size | version
      · exact .inl short
      · exact .inr (.inl size)
      · exact .inr (.inr (.inl version))
  obtain ⟨long, size, version⟩ : 4 < data.length ∧ le16 data 0 = data.length ∧
      (byteAt data 2).toNat ≤ versionMajor := by
    omega
  rw [manifestParseReads_accepted long size version]
  constructor
  · intro promised
    obtain ⟨records, rest, split⟩ := exists_split (data.drop 4)
    obtain ⟨-, atCut, atRefused⟩ := manifestParseLoopReads_rest split.refused
    have memory : HasMemory malloc cports.length (cportsIn records).length := by
      by_contra full
      refine promised.returns ?_
      rw [split.whole, manifestParseLoopReads_flatten split.valid, if_neg full]
    have behind := split.behind gDeviceId memory
    refine .inr (.inr (.inr ⟨records, rest, split, memory, fun nonempty => ?_⟩))
    have uncut : ¬CutString rest := fun cut => promised.returns (behind.trans (atCut cut))
    have kept := congrArg List.length (promised.refuses _ (behind.trans (atRefused nonempty uncut)))
    rw [List.length_append, List.length_map] at kept
    exact ⟨List.length_eq_zero_iff.mp (by omega), uncut⟩
  · intro parsable
    obtain ⟨records, rest, split, memory, complete⟩ := ((parsable.resolve_left (Nat.not_le.mpr long)).resolve_left
      (not_not_intro size)).resolve_left (Nat.not_lt.mpr version)
    obtain ⟨atEnd, -, atRefused⟩ := manifestParseLoopReads_rest split.refused
    have behind := split.behind gDeviceId memory
    by_cases empty : rest = []
    · rw [behind, atEnd empty]
      refine ⟨nofun, fun parsed _ => ⟨size, version, records, ?_, split.valid⟩, nofun⟩
      rw [split.whole, empty, List.append_nil]
    · obtain ⟨none, uncut⟩ := complete empty
      rw [behind, atRefused empty uncut, none]
      refine ⟨nofun, nofun, fun parsed same => ?_⟩
      exact (Prod.mk.inj (Option.some.inj same)).2.symm.trans (List.append_nil cports)

/-- A cport descriptor, and a descriptor of an unknown type behind it. The cport stays in the list. -/
theorem manifest_parse_atomic_keeps_cport :
    ¬Promised [16, 0, 0, 1, 8, 0, 4, 0, 2, 0, 0, 0, 4, 0, 0, 0] []
      (manifestParseReads 0 (fun _ => true) [16, 0, 0, 1, 8, 0, 4, 0, 2, 0, 0, 0, 4, 0, 0, 0] []) := by
  intro promised
  have kept := promised.refuses [⟨2, 0, 0⟩] (by decide +kernel)
  cases kept

end Phabos.Manifest
