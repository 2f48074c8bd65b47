import Mathlib.Data.List.GetD
import Phabos.Construction.Greybus.Manifest
import Phabos.Library.Segments

namespace Phabos.Manifest
open Library List

/-- The descriptors of a manifest, behind its header -/
def descriptors (data : List UInt8) : List (List UInt8) := records descSize (data.drop 4)

def cportDescriptors (data : List UInt8) : List (List UInt8) :=
  (descriptors data).filter fun desc => descType desc = typeCport

/-- The entry of a cport descriptor in the list of the module -/
def entryOf (gDeviceId : Int) (desc : List UInt8) : GbCport := ⟨cportId desc, cportProtocol desc, gDeviceId⟩

/-- A descriptor whose size is its length and covers what its type needs -/
structure Valid (record : List UInt8) : Prop where
  size : descSize record = record.length
  expected : ∃ expected ∈ expectedSize record, expected ≤ record.length

section Descriptor
variable {record rest desc : List UInt8}

theorem byteAt_append {offset : ℕ} (inside : offset < record.length) :
    byteAt (record ++ rest) offset = byteAt record offset := getD_append _ _ _ _ inside

theorem le16_append {offset : ℕ} (inside : offset + 1 < record.length) :
    le16 (record ++ rest) offset = le16 record offset := by
  unfold le16
  rw [getD_append _ _ _ _ (Nat.lt_of_succ_lt inside), getD_append _ _ _ _ inside]

theorem eight_le_expectedSize : ∀ expected ∈ expectedSize desc, 8 ≤ expected := by
  intro expected same
  unfold expectedSize align at same
  split at same
  · rw [← Option.some.inj same]
    omega
  split at same
  · exact Nat.le_of_eq (Option.some.inj same)
  split at same
  · exact Nat.le_of_eq (Option.some.inj same)
  split at same
  · exact Nat.le_of_eq (Option.some.inj same)
  · cases same

theorem Valid.length (valid : Valid record) : 8 ≤ record.length := by
  obtain ⟨expected, same, fits⟩ := valid.expected
  exact Nat.le_trans (eight_le_expectedSize expected same) fits

/-- The fields of a descriptor are in its first eight bytes. -/
structure SameFields (desc record : List UInt8) : Prop where
  size : descSize desc = descSize record
  type : descType desc = descType record
  expected : expectedSize desc = expectedSize record
  bundle : bundleId desc = bundleId record ∧ bundleClass desc = bundleClass record
  cport : cportId desc = cportId record ∧ cportBundle desc = cportBundle record ∧
    cportProtocol desc = cportProtocol record

theorem sameFields (long : 8 ≤ record.length) : SameFields (record ++ rest) record := by
  have size : descSize (record ++ rest) = descSize record := le16_append (by omega)
  have type : descType (record ++ rest) = descType record := byteAt_append (by omega)
  have byte {offset : ℕ} (inside : offset < 8) : byteAt (record ++ rest) offset = byteAt record offset :=
    byteAt_append (by omega)
  refine ⟨size, type, ?_, ⟨?_, ?_⟩, le16_append (by omega), ?_, ?_⟩
  · unfold expectedSize stringLength
    rw [type, byte (by decide)]
  all_goals exact congrArg UInt8.toNat (byte (by decide))

/-- What a descriptor does to the list of cports -/
def applyDescriptor (gDeviceId : Int) (release : Bool) (cports : List GbCport) (desc : List UInt8) : List GbCport :=
  if descType desc = typeCport then
    if release then freeCport (cportId desc) cports else allocCport (entryOf gDeviceId desc) cports
  else cports

theorem identifyDescriptor_valid (valid : Valid record) (gDeviceId : Int) (release : Bool) (cports : List GbCport) :
    identifyDescriptor gDeviceId release (record ++ rest) cports =
      ((record.length : Int), applyDescriptor gDeviceId release cports record) := by
  have long := valid.length
  have fields : SameFields (record ++ rest) record := sameFields long
  obtain ⟨expected, same, fits⟩ := valid.expected
  unfold identifyDescriptor
  rw [fields.size, fields.type, fields.expected, same, valid.size, length_append, if_neg (by omega),
    if_neg (by omega)]
  dsimp only
  rw [if_neg (Nat.not_lt.mpr fits)]
  unfold applyDescriptor
  rw [fields.cport.1, fields.cport.2.2]
  by_cases cport : descType record = typeCport
  · rw [if_pos ⟨cport, fits⟩, if_pos cport]
    rfl
  · rw [if_neg (fun both => cport both.1), if_neg cport]

theorem identifyDescriptor_pos {gDeviceId : Int} {release : Bool} {cports : List GbCport}
    (accepted : 0 < (identifyDescriptor gDeviceId release desc cports).1) :
    ∃ record rest, desc = record ++ rest ∧ Valid record := by
  unfold identifyDescriptor at accepted
  split at accepted
  · cases accepted
  split at accepted
  · cases accepted
  rename_i inside
  split at accepted
  · cases accepted
  rename_i expected same
  dsimp only at accepted
  split at accepted
  · cases accepted
  rename_i enough
  have long := eight_le_expectedSize expected same
  have length : (desc.take (descSize desc)).length = descSize desc := by
    rw [length_take]
    omega
  have whole := take_append_drop (descSize desc) desc
  have fields : SameFields (desc.take (descSize desc) ++ desc.drop (descSize desc)) (desc.take (descSize desc)) :=
    sameFields (by omega)
  rw [whole] at fields
  refine ⟨desc.take (descSize desc), desc.drop (descSize desc), whole.symm, ?_, expected, ?_, ?_⟩
  · rw [length]
    exact fields.size.symm
  · exact fields.expected ▸ same
  · rw [length]
    exact Nat.le_of_not_lt enough

end Descriptor

section Loop
variable {records : List (List UInt8)} {desc : List UInt8} {gDeviceId : Int} {release : Bool}

/-- The loop applies the valid records one after the other. -/
theorem manifestParseLoop_flatten (valid : ∀ record ∈ records, Valid record) (gDeviceId : Int) (release : Bool)
    (cports : List GbCport) :
    manifestParseLoop gDeviceId release records.flatten cports =
      (true, records.foldl (applyDescriptor gDeviceId release) cports) := by
  induction records generalizing cports with
  | nil =>
    rw [manifestParseLoop, flatten_nil, if_pos rfl]
    rfl
  | cons record records ih =>
    have first := valid record mem_cons_self
    have long := first.length
    have nonempty : record ++ records.flatten ≠ [] := by
      refine ne_nil_of_length_pos ?_
      rw [length_append]
      omega
    rw [flatten_cons, manifestParseLoop, if_neg nonempty, identifyDescriptor_valid first]
    dsimp only
    rw [if_neg (by omega), Int.toNat_natCast, drop_left,
      ih (fun other there => valid other (mem_cons_of_mem _ there))]
    rfl

theorem manifestParseLoop_accepts {cports parsed : List GbCport}
    (accepted : manifestParseLoop gDeviceId release desc cports = (true, parsed)) :
    ∃ records : List (List UInt8), desc = records.flatten ∧ ∀ record ∈ records, Valid record := by
  induction length : desc.length using Nat.strongRecOn generalizing desc cports with
  | _ length ih =>
    rw [manifestParseLoop] at accepted
    split at accepted
    · rename_i empty
      exact ⟨[], empty, nofun⟩
    · dsimp only at accepted
      split at accepted
      · cases accepted
      · rename_i positive
        obtain ⟨record, rest, rfl, valid⟩ := identifyDescriptor_pos (Int.not_le.mp positive)
        have long := valid.length
        rw [identifyDescriptor_valid valid, Int.toNat_natCast, drop_left] at accepted
        rw [length_append] at length
        obtain ⟨records, rfl, valids⟩ := ih rest.length (by omega) accepted rfl
        exact ⟨record :: records, rfl, forall_mem_cons.mpr ⟨valid, valids⟩⟩

theorem records_valid (valid : ∀ record ∈ records, Valid record) : Library.records descSize records.flatten = records := by
  refine records_flatten (fun record there => ?_) fun record there rest => ?_
  · have long := (valid record there).length
    exact ne_nil_of_length_pos (by omega)
  · have first := valid record there
    rw [(sameFields first.length).size, first.size]

theorem foldl_parse (records : List (List UInt8)) (cports : List GbCport) :
    records.foldl (applyDescriptor gDeviceId false) cports =
      cports ++ (records.filter fun desc => descType desc = typeCport).map (entryOf gDeviceId) := by
  induction records generalizing cports with
  | nil => exact (append_nil _).symm
  | cons record records ih =>
    rw [foldl_cons, ih]
    unfold applyDescriptor
    by_cases cport : descType record = typeCport
    · simp only [cport, if_true, filter_cons, decide_true, map_cons]
      exact append_assoc _ _ _
    · simp only [cport, if_false, filter_cons, decide_false, Bool.false_eq_true]

theorem freeCport_eq_filter (id : Int) (cports : List GbCport) :
    freeCport id cports = cports.filter fun cport => cport.id ≠ id := by
  induction cports with
  | nil => rfl
  | cons cport rest ih =>
    unfold freeCport
    rw [ih]
    by_cases same : cport.id = id <;> simp [same]

/-- A release takes away the cports that the records name. -/
theorem foldl_release (records : List (List UInt8)) (cports : List GbCport) :
    records.foldl (applyDescriptor gDeviceId true) cports =
      cports.filter fun cport => (records.filter fun desc => descType desc = typeCport).all fun desc =>
        cport.id ≠ (cportId desc : Int) := by
  induction records generalizing cports with
  | nil => exact (filter_eq_self.mpr fun _ _ => rfl).symm
  | cons record records ih =>
    rw [foldl_cons, ih]
    unfold applyDescriptor
    by_cases cport : descType record = typeCport
    · rw [if_pos cport, if_pos rfl, freeCport_eq_filter, filter_filter]
      refine filter_congr fun entry _ => ?_
      simp only [filter_cons, cport, decide_true, if_true, all_cons, Bool.and_comm]
    · simp only [cport, if_false, filter_cons, decide_false, Bool.false_eq_true]

/-- What is accepted is a header and valid records. -/
theorem manifestParse_accepts {data : List UInt8} {cports parsed : List GbCport}
    (accepted : manifestParse gDeviceId data cports = some (true, parsed)) :
    4 < data.length ∧ le16 data 0 = data.length ∧ (∀ desc ∈ descriptors data, Valid desc) ∧
      data.drop 4 = (descriptors data).flatten ∧ parsed = cports ++ (cportDescriptors data).map (entryOf gDeviceId) := by
  unfold manifestParse manifestParseOrRelease at accepted
  split at accepted
  · cases accepted
  rename_i checked
  simp only [Bool.not_false, true_and, not_or, not_not, Nat.not_le] at checked
  rw [if_neg (by omega)] at accepted
  have looped := Option.some.inj accepted
  obtain ⟨records, split, valid⟩ := manifestParseLoop_accepts looped
  have all : descriptors data = records := by
    unfold descriptors
    rw [split, records_valid valid]
  have done := manifestParseLoop_flatten valid gDeviceId false cports
  rw [← split, looped, foldl_parse] at done
  unfold cportDescriptors
  rw [all]
  exact ⟨checked.1, checked.2.1, valid, split, (Prod.mk.inj done).2⟩

end Loop

/-- The parse of an accepted manifest adds one entry for each cport descriptor, and the release of the same bytes
restores a list that had none of their ids. -/
theorem manifest_release_undoes_parse (gDeviceId other : Int) (data : List UInt8) (cports parsed : List GbCport)
    (accepted : manifestParse gDeviceId data cports = some (true, parsed))
    (fresh : ∀ cport ∈ cports, ∀ desc ∈ cportDescriptors data, cport.id ≠ cportId desc) :
    parsed = cports ++ (cportDescriptors data).map (entryOf gDeviceId) ∧
      manifestRelease other data parsed = some (true, cports) := by
  obtain ⟨long, -, valid, split, entries⟩ := manifestParse_accepts accepted
  refine ⟨entries, ?_⟩
  have released := manifestParseLoop_flatten valid other true parsed
  rw [← split, foldl_release, entries, List.filter_append] at released
  have kept : cports.filter (fun cport => (cportDescriptors data).all fun desc => cport.id ≠ (cportId desc : Int)) =
      cports := by
    refine List.filter_eq_self.mpr fun cport there => ?_
    exact List.all_eq_true.mpr fun desc listed => decide_eq_true (fresh cport there desc listed)
  have freed : ((cportDescriptors data).map (entryOf gDeviceId)).filter
      (fun cport => (cportDescriptors data).all fun desc => cport.id ≠ (cportId desc : Int)) = [] := by
    refine List.filter_eq_nil_iff.mpr fun cport there => ?_
    obtain ⟨desc, listed, rfl⟩ := List.mem_map.mp there
    exact fun all => of_decide_eq_true (List.all_eq_true.mp all desc listed) rfl
  unfold manifestRelease manifestParseOrRelease
  rw [if_neg (by simp), if_neg (by omega), entries]
  refine congrArg some (released.trans ?_)
  exact congrArg (Prod.mk true) ((congrArg₂ _ kept freed).trans (List.append_nil _))

/-- A manifest with two cport descriptors -/
def twoCports : List UInt8 := [20, 0, 0, 1, 8, 0, 4, 0, 3, 0, 1, 2, 8, 0, 4, 0, 4, 0, 1, 6]

theorem manifest_release_undoes_parse_two :
    ∃ parsed, manifestParse 5 twoCports [⟨9, 1, 0⟩] = some (true, parsed) ∧
      parsed = [⟨9, 1, 0⟩, ⟨3, 2, 5⟩, ⟨4, 6, 5⟩] ∧
      manifestRelease 0 twoCports parsed = some (true, [⟨9, 1, 0⟩]) := by
  have accepted : manifestParse 5 twoCports [⟨9, 1, 0⟩] = some (true, [⟨9, 1, 0⟩, ⟨3, 2, 5⟩, ⟨4, 6, 5⟩]) := by
    decide +kernel
  have fresh : ∀ cport ∈ [GbCport.mk 9 1 0], ∀ desc ∈ cportDescriptors twoCports, cport.id ≠ cportId desc := by
    decide +kernel
  exact ⟨_, accepted, rfl, (manifest_release_undoes_parse 5 0 _ _ _ accepted fresh).2⟩

end Phabos.Manifest
