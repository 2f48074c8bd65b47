import Phabos.Library.Search
import Phabos.Proof.Greybus.ManifestRelease

namespace Phabos.Manifest
open Library List Function

/-- A bundle of a list of descriptors that is not of control class -/
def HasBundle (records : List (List UInt8)) (bundle : ℕ) : Prop :=
  ∃ desc ∈ records, descType desc = typeBundle ∧ bundleId desc = bundle ∧ bundleClass desc ≠ classControl

instance (records : List (List UInt8)) (bundle : ℕ) : Decidable (HasBundle records bundle) :=
  inferInstanceAs (Decidable (∃ desc ∈ records, _))

/-- The cport descriptors of a list whose id is not 0 and whose bundle is one of a list of descriptors -/
def bundled (all records : List (List UInt8)) : List (List UInt8) :=
  (records.filter fun desc => descType desc = typeCport).filter fun desc =>
    cportId desc ≠ controlCport ∧ HasBundle all (cportBundle desc)

/-- The cport descriptors whose id is not 0 and whose bundle descriptor is present and not of control class -/
def bundledCports (data : List UInt8) : List (List UInt8) := bundled (descriptors data) (descriptors data)

def tripleOf (desc : List UInt8) : ℕ × ℕ × ℕ := (cportId desc, cportBundle desc, cportProtocol desc)

/-- The protocol of a cport in the tables of the AP -/
def GbInterface.protocolOf (iface : GbInterface) (bundle id : ℕ) : Option ℕ :=
  (iface.bundles bundle).bind fun found => found.cports id

section Descriptor
variable {record rest : List UInt8} {iface : GbInterface}

theorem Valid.type (valid : Valid record) : descType record = typeString ∨ descType record = typeInterface ∨
    descType record = typeBundle ∨ descType record = typeCport := by
  obtain ⟨expected, same, -⟩ := valid.expected
  unfold expectedSize at same
  by_contra none
  simp only [not_or] at none
  rw [if_neg none.1, if_neg none.2.1, if_neg none.2.2.1, if_neg none.2.2.2] at same
  cases same

/-- What a bundle descriptor does to the interface -/
def addBundle (iface : GbInterface) (desc : List UInt8) : GbInterface :=
  if bundleClass desc = classControl then iface
  else { iface with
    bundles := update iface.bundles (bundleId desc) (some ⟨bundleClass desc, fun _ => none⟩) }

/-- What a cport descriptor does to the interface -/
def addCport (iface : GbInterface) (desc : List UInt8) : GbInterface :=
  if cportId desc = controlCport then iface
  else
    match iface.bundles (cportBundle desc) with
    | none => iface
    | some bundle =>
      { bundles := update iface.bundles (cportBundle desc) (some { bundle with
          cports := update bundle.cports (cportId desc) (some (cportProtocol desc)) })
        created := iface.created ++ [tripleOf desc] }

theorem manifestParseBundle_valid (valid : Valid record) :
    manifestParseBundle iface (record ++ rest) = ((record.length : Int), addBundle iface record) := by
  have long := valid.length
  have fields : SameFields (record ++ rest) record := sameFields long
  unfold manifestParseBundle addBundle
  rw [fields.size, fields.bundle.1, fields.bundle.2, valid.size, length_append, if_neg (by omega)]
  split <;> rfl

theorem manifestParseCport_valid (valid : Valid record) :
    manifestParseCport iface (record ++ rest) = ((record.length : Int), addCport iface record) := by
  have long := valid.length
  have fields : SameFields (record ++ rest) record := sameFields long
  unfold manifestParseCport addCport
  rw [fields.size, fields.cport.1, fields.cport.2.1, fields.cport.2.2, valid.size, length_append,
    if_neg (by omega)]
  split
  · rfl
  · cases iface.bundles (cportBundle record) <;> rfl

/-- What a descriptor does in the first loop -/
def applyFirst (iface : GbInterface) (desc : List UInt8) : GbInterface :=
  if descType desc = typeBundle then addBundle iface desc
  else if descType desc = typeCport then addCport iface desc
  else iface

/-- What a descriptor does in the second loop -/
def applyAgain (iface : GbInterface) (desc : List UInt8) : GbInterface :=
  if descType desc = typeCport then addCport iface desc else iface

theorem parseDescriptor_valid (valid : Valid record) (iface : GbInterface) (rest : List UInt8) :
    parseDescriptor iface (record ++ rest) = ((record.length : Int), applyFirst iface record) := by
  have long := valid.length
  have fields : SameFields (record ++ rest) record := sameFields long
  have short : ¬((record ++ rest).length < 8 ∨ (record ++ rest).length < descSize (record ++ rest)) := by
    rw [fields.size, valid.size, length_append]
    omega
  unfold parseDescriptor applyFirst
  rw [fields.type]
  rcases valid.type with type | type | type | type <;> rw [type]
  · change manifestParseString iface (record ++ rest) = _
    unfold manifestParseString
    rw [if_neg (by omega), fields.size, valid.size]
    rfl
  · change manifestParseInterface iface (record ++ rest) = _
    unfold manifestParseInterface
    rw [if_neg short, fields.size, valid.size]
    rfl
  · exact manifestParseBundle_valid valid
  · exact manifestParseCport_valid valid

theorem parseDescriptorAgain_valid (valid : Valid record) (nread : Int) (iface : GbInterface) (rest : List UInt8) :
    parseDescriptorAgain nread iface (record ++ rest) = ((record.length : Int), applyAgain iface record) := by
  have fields : SameFields (record ++ rest) record := sameFields valid.length
  unfold parseDescriptorAgain applyAgain
  rw [fields.type, fields.size, valid.size]
  rcases valid.type with type | type | type | type <;> rw [type]
  · rfl
  · rfl
  · rfl
  · exact manifestParseCport_valid valid

theorem apParseLoop_flatten {parse : GbInterface → List UInt8 → Int × GbInterface}
    {apply : GbInterface → List UInt8 → GbInterface} {records : List (List UInt8)}
    (valid : ∀ record ∈ records, Valid record)
    (reads : ∀ record, Valid record → ∀ iface rest,
      parse iface (record ++ rest) = ((record.length : Int), apply iface record)) (iface : GbInterface) :
    apParseLoop parse records.flatten iface = (0, records.foldl apply iface) := by
  induction records generalizing iface with
  | nil =>
    rw [apParseLoop, flatten_nil, if_pos (by decide)]
    rfl
  | cons record records ih =>
    have first := valid record mem_cons_self
    have long := first.length
    rw [flatten_cons, apParseLoop, if_neg (by rw [length_append]; omega), reads record first]
    dsimp only
    rw [if_neg (by omega), Int.toNat_natCast, drop_left,
      ih (fun other there => valid other (mem_cons_of_mem _ there))]
    rfl

end Descriptor

section Tables
variable {records : List (List UInt8)} {iface : GbInterface} {bundle id : ℕ}

def GbInterface.classOf (iface : GbInterface) (bundle : ℕ) : Option ℕ := (iface.bundles bundle).map GbBundle.bundleClass

section
variable (iface : GbInterface) (desc : List UInt8)

theorem addCport_classOf (bundle : ℕ) : (addCport iface desc).classOf bundle = iface.classOf bundle := by
  unfold addCport
  split
  · rfl
  · split
    · rfl
    · rename_i found
      unfold GbInterface.classOf
      dsimp only
      rw [update_apply]
      split
      · rename_i same
        rw [same, found]
        rfl
      · rfl

theorem addCport_bundles (bundle : ℕ) :
    ((addCport iface desc).bundles bundle).isSome = (iface.bundles bundle).isSome := by
  have same := congrArg Option.isSome (addCport_classOf iface desc bundle)
  rwa [GbInterface.classOf, GbInterface.classOf, Option.isSome_map, Option.isSome_map] at same

theorem addCport_created :
    (addCport iface desc).created = iface.created ++
      if cportId desc ≠ controlCport ∧ (iface.bundles (cportBundle desc)).isSome then [tripleOf desc] else [] := by
  unfold addCport
  split
  · rename_i control
    rw [if_neg (fun both => both.1 control), append_nil]
  · rename_i regular
    split
    · rename_i nothing
      rw [if_neg (by rw [nothing]; exact fun both => Bool.false_ne_true both.2), append_nil]
    · rename_i found
      rw [if_pos ⟨regular, by rw [found]; rfl⟩]

theorem addCport_protocolOf (bundle id : ℕ) :
    (addCport iface desc).protocolOf bundle id =
      if cportId desc ≠ controlCport ∧ (iface.bundles (cportBundle desc)).isSome ∧ cportId desc = id ∧
        cportBundle desc = bundle then some (cportProtocol desc)
      else iface.protocolOf bundle id := by
  unfold addCport
  split
  · rename_i control
    rw [if_neg (fun all => all.1 control)]
  · rename_i regular
    split
    · rename_i nothing
      rw [if_neg (by rw [nothing]; exact fun all => Bool.false_ne_true all.2.1)]
    · rename_i found
      unfold GbInterface.protocolOf
      dsimp only
      rw [update_apply, found]
      by_cases place : bundle = cportBundle desc
      · rw [if_pos place, Option.bind_some, place, found]
        dsimp only
        rw [update_apply]
        by_cases own : id = cportId desc
        · rw [if_pos own, if_pos ⟨regular, rfl, own.symm, rfl⟩]
        · rw [if_neg own, if_neg (fun all => own all.2.2.1.symm)]
          rfl
      · rw [if_neg place, if_neg (fun all => place all.2.2.2.symm)]

end

/-- What the first loop has found in the descriptors so far -/
structure Found (records : List (List UInt8)) (iface : GbInterface) : Prop where
  bundles : ∀ bundle, (iface.bundles bundle).isSome ↔ HasBundle records bundle
  created : ∀ triple ∈ iface.created, ∃ desc ∈ bundled records records, tripleOf desc = triple
  tables : ∀ bundle id, ∀ protocol ∈ iface.protocolOf bundle id, (id, bundle, protocol) ∈ iface.created

variable {all : List (List UInt8)}

theorem mem_bundled {desc : List UInt8} :
    desc ∈ bundled all records ↔ desc ∈ records ∧ descType desc = typeCport ∧ cportId desc ≠ controlCport ∧
      HasBundle all (cportBundle desc) := by
  unfold bundled
  rw [mem_filter, mem_filter, decide_eq_true_eq, decide_eq_true_eq, and_assoc]

theorem hasBundle_append {later : List (List UInt8)} :
    HasBundle (records ++ later) bundle ↔ HasBundle records bundle ∨ HasBundle later bundle := by
  unfold HasBundle
  simp only [mem_append, or_and_right, exists_or]

theorem bundled_grows {later : List (List UInt8)} {desc : List UInt8} (found : desc ∈ bundled records records) :
    desc ∈ bundled (records ++ later) (records ++ later) := by
  obtain ⟨there, cport, regular, known⟩ := mem_bundled.mp found
  exact mem_bundled.mpr ⟨mem_append_left _ there, cport, regular, hasBundle_append.mpr (.inl known)⟩

theorem addBundle_bundles (iface : GbInterface) (desc : List UInt8) (bundle : ℕ) :
    ((addBundle iface desc).bundles bundle).isSome ↔
      (iface.bundles bundle).isSome ∨ bundleId desc = bundle ∧ bundleClass desc ≠ classControl := by
  unfold addBundle
  split
  · rename_i control
    exact (or_iff_left fun both => both.2 control).symm
  · rename_i regular
    dsimp only
    rw [update_apply]
    split
    · rename_i same
      exact iff_of_true rfl (.inr ⟨same.symm, regular⟩)
    · rename_i differs
      exact (or_iff_left fun both => differs both.1.symm).symm

theorem addBundle_protocolOf (iface : GbInterface) (desc : List UInt8) :
    ∀ protocol ∈ (addBundle iface desc).protocolOf bundle id, protocol ∈ iface.protocolOf bundle id := by
  intro protocol there
  unfold addBundle at there
  split at there
  · exact there
  · unfold GbInterface.protocolOf at there
    dsimp only at there
    rw [update_apply] at there
    split at there
    · cases there
    · exact there

theorem Found.next (found : Found records iface) (desc : List UInt8) :
    Found (records ++ [desc]) (applyFirst iface desc) := by
  have one (bundle : ℕ) : HasBundle [desc] bundle ↔
      descType desc = typeBundle ∧ bundleId desc = bundle ∧ bundleClass desc ≠ classControl := by
    unfold HasBundle
    simp only [mem_singleton, exists_eq_left]
  have old {triple : ℕ × ℕ × ℕ} (there : triple ∈ iface.created) :
      ∃ desc' ∈ bundled (records ++ [desc]) (records ++ [desc]), tripleOf desc' = triple := by
    obtain ⟨other, listed, same⟩ := found.created triple there
    exact ⟨other, bundled_grows listed, same⟩
  unfold applyFirst
  by_cases isBundle : descType desc = typeBundle
  · rw [if_pos isBundle]
    have created : (addBundle iface desc).created = iface.created := by
      unfold addBundle
      split <;> rfl
    refine ⟨fun bundle => ?_, fun triple there => old (created ▸ there), fun bundle id protocol there => ?_⟩
    · rw [addBundle_bundles, found.bundles, hasBundle_append, one, and_iff_right isBundle]
    · rw [created]
      exact found.tables bundle id protocol (addBundle_protocolOf iface desc protocol there)
  rw [if_neg isBundle]
  have same (bundle : ℕ) : HasBundle (records ++ [desc]) bundle ↔ HasBundle records bundle := by
    rw [hasBundle_append, one]
    exact or_iff_left fun both => isBundle both.1
  by_cases cport : descType desc = typeCport
  · rw [if_pos cport]
    refine ⟨fun bundle => ?_, fun triple there => ?_, fun bundle id protocol there => ?_⟩
    · rw [addCport_bundles, found.bundles, same]
    · rw [addCport_created] at there
      rcases mem_append.mp there with before | new
      · exact old before
      · split at new
        · rename_i enabled
          refine ⟨desc, mem_bundled.mpr ⟨?_, cport, enabled.1, ?_⟩, (mem_singleton.mp new).symm⟩
          · exact mem_append_right _ mem_cons_self
          · exact (same _).mpr ((found.bundles _).mp enabled.2)
        · cases new
    · rw [addCport_created]
      rw [addCport_protocolOf] at there
      split at there
      · rename_i all
        rw [if_pos ⟨all.1, all.2.1⟩, ← Option.some.inj there, ← all.2.2.1, ← all.2.2.2]
        exact mem_append_right _ mem_cons_self
      · exact mem_append_left _ (found.tables bundle id protocol there)
  · rw [if_neg cport]
    exact ⟨fun bundle => (found.bundles bundle).trans (same bundle).symm, fun triple there => old there, found.tables⟩

/-- The first pass over more records finds their bundles too. -/
theorem Found.foldl (found : Found records iface) (later : List (List UInt8)) :
    Found (records ++ later) (later.foldl applyFirst iface) := by
  induction later generalizing records iface with
  | nil => exact (append_nil records).symm ▸ found
  | cons desc later ih =>
    have next := ih (found.next desc)
    rwa [append_assoc] at next

theorem bundled_cons {all later : List (List UInt8)} {desc : List UInt8} :
    bundled all (desc :: later) =
      (if descType desc = typeCport ∧ cportId desc ≠ controlCport ∧ HasBundle all (cportBundle desc) then [desc] else []) ++
        bundled all later := by
  unfold bundled
  rw [filter_filter, filter_filter, filter_cons]
  by_cases cport : descType desc = typeCport <;>
    by_cases enabled : cportId desc ≠ controlCport ∧ HasBundle all (cportBundle desc) <;> simp [cport, enabled]

theorem applyAgain_bundles (iface : GbInterface) (desc : List UInt8) (bundle : ℕ) :
    ((applyAgain iface desc).bundles bundle).isSome = (iface.bundles bundle).isSome := by
  unfold applyAgain
  split
  · exact addCport_bundles iface desc bundle
  · rfl

theorem foldl_applyAgain_created (later : List (List UInt8))
    (known : ∀ bundle, (iface.bundles bundle).isSome ↔ HasBundle all bundle) :
    (later.foldl applyAgain iface).created = iface.created ++ (bundled all later).map tripleOf := by
  induction later generalizing iface with
  | nil => exact (append_nil _).symm
  | cons desc later ih =>
    have first : (applyAgain iface desc).created = iface.created ++
        (if descType desc = typeCport ∧ cportId desc ≠ controlCport ∧ HasBundle all (cportBundle desc) then [desc]
          else []).map tripleOf := by
      unfold applyAgain
      by_cases cport : descType desc = typeCport
      · rw [if_pos cport, addCport_created]
        simp only [known, cport, true_and, apply_ite (map tripleOf), map_cons, map_nil]
      · simp only [cport, if_false, false_and, map_nil, append_nil]
    rw [foldl_cons, ih (fun bundle => by rw [applyAgain_bundles, known]), first, bundled_cons, map_append,
      append_assoc]

theorem foldl_applyAgain_protocolOf (later : List (List UInt8))
    (known : ∀ bundle, (iface.bundles bundle).isSome ↔ HasBundle all bundle) (bundle id : ℕ) :
    (later.foldl applyAgain iface).protocolOf bundle id =
      (((bundled all later).reverse.find? fun desc => cportId desc = id ∧ cportBundle desc = bundle).map
        cportProtocol).or (iface.protocolOf bundle id) := by
  induction later generalizing iface with
  | nil => rfl
  | cons desc later ih =>
    have first : (applyAgain iface desc).protocolOf bundle id =
        (((if descType desc = typeCport ∧ cportId desc ≠ controlCport ∧ HasBundle all (cportBundle desc) then [desc]
          else []).reverse.find? fun desc => cportId desc = id ∧ cportBundle desc = bundle).map cportProtocol).or
            (iface.protocolOf bundle id) := by
      have sees := known (cportBundle desc)
      unfold applyAgain
      by_cases enabled : descType desc = typeCport ∧ cportId desc ≠ controlCport ∧ HasBundle all (cportBundle desc)
      · rw [if_pos enabled.1, if_pos enabled, addCport_protocolOf]
        by_cases own : cportId desc = id ∧ cportBundle desc = bundle
        · rw [if_pos ⟨enabled.2.1, sees.mpr enabled.2.2, own⟩, reverse_singleton, List.find?_cons_of_pos (by simpa using own)]
          rfl
        · rw [if_neg (fun all => own all.2.2), reverse_singleton, List.find?_cons_of_neg (by simpa using own)]
          rfl
      · rw [if_neg enabled]
        split
        · rename_i cport
          rw [addCport_protocolOf, if_neg (fun all => enabled ⟨cport, all.1, sees.mp all.2.1⟩)]
          rfl
        · rfl
    rw [foldl_cons, ih (fun bundle => by rw [applyAgain_bundles, known]), first, bundled_cons,
      reverse_append, List.find?_append, Option.map_or, Option.or_assoc]

/-- The second pass gives each cport the protocol of its last descriptor. -/
theorem Found.protocolOf (found : Found records iface) (bundle id : ℕ) :
    (records.foldl applyAgain iface).protocolOf bundle id =
      ((bundled records records).reverse.find? fun desc => cportId desc = id ∧ cportBundle desc = bundle).map
        cportProtocol := by
  rw [foldl_applyAgain_protocolOf _ found.bundles]
  cases last : (bundled records records).reverse.find? fun desc => cportId desc = id ∧ cportBundle desc = bundle with
  | some desc => rfl
  | none =>
    rw [Option.map_none, Option.none_or]
    refine Option.eq_none_iff_forall_not_mem.mpr fun protocol there => ?_
    obtain ⟨desc, listed, same⟩ := found.created _ (found.tables bundle id protocol there)
    obtain ⟨own, same⟩ := Prod.mk.inj same
    have missed := List.find?_eq_none.mp last desc (mem_reverse.mpr listed)
    exact missed (decide_eq_true ⟨own, (Prod.mk.inj same).1⟩)

theorem Found.create : Found [] GbInterface.create := by
  refine ⟨fun bundle => iff_of_false Bool.false_ne_true ?_, nofun, fun _ _ _ there => ?_⟩
  · rintro ⟨desc, there, -⟩
    cases there
  · cases there

/-- A manifest of valid records is applied in two passes. -/
theorem apManifestParse_valid {data : List UInt8} (nread : Int) (some : records ≠ []) (header : 4 ≤ data.length)
    (size : le16 data 0 = data.length) (split : data.drop 4 = records.flatten)
    (valid : ∀ record ∈ records, Valid record) : apManifestParse nread GbInterface.create data =
      (0, records.foldl applyAgain (records.foldl applyFirst GbInterface.create)) := by
  have first := apParseLoop_flatten valid (fun _ => parseDescriptor_valid) GbInterface.create
  have second := apParseLoop_flatten valid (fun _ valid => parseDescriptorAgain_valid valid nread)
    (records.foldl applyFirst GbInterface.create)
  rw [← split] at first second
  have long : ¬data.length < 4 + 4 := by
    -- A valid descriptor behind the header has eight bytes.
    have rest : (data.drop 4).length = data.length - 4 := length_drop
    obtain ⟨desc, records, rfl⟩ := exists_cons_of_ne_nil some
    have eight := (valid desc mem_cons_self).length
    rw [split, flatten_cons, length_append] at rest
    omega
  unfold apManifestParse
  rw [if_neg long, size, if_neg (Nat.lt_irrefl _), take_length]
  dsimp only
  rw [first, if_neg (not_not_intro rfl), second]

end Tables

/-- The AP accepts every manifest that the module accepts, creates exactly the module's cports whose id is not 0 and
whose bundle is present and not of control class, and its tables hold the last of them for each id and bundle. -/
theorem ap_manifest_parse_agrees (gDeviceId nread : Int) (data : List UInt8) (cports parsed : List GbCport)
    (accepted : manifestParse gDeviceId data cports = some (true, parsed)) :
    parsed = cports ++ (cportDescriptors data).map (entryOf gDeviceId) ∧
      ∃ iface, apManifestParse nread GbInterface.create data = (0, iface) ∧
        (∀ triple, triple ∈ iface.created ↔ ∃ desc ∈ bundledCports data, tripleOf desc = triple) ∧
        ∀ bundle id, iface.protocolOf bundle id =
          ((bundledCports data).reverse.find? fun desc => cportId desc = id ∧ cportBundle desc = bundle).map
            cportProtocol := by
  obtain ⟨long, size, valid, split, entries⟩ := manifestParse_accepts accepted
  have found := Found.create.foldl (descriptors data)
  rw [List.nil_append] at found
  have some : descriptors data ≠ [] := by
    intro none
    have rest : (data.drop 4).length = data.length - 4 := List.length_drop
    rw [split, none] at rest
    have nothing : ([] : List (List UInt8)).flatten.length = 0 := rfl
    omega
  refine ⟨entries, _, apManifestParse_valid nread some (Nat.le_of_lt long) size split valid, fun triple => ?_,
    found.protocolOf⟩
  rw [foldl_applyAgain_created _ found.bundles, List.mem_append, List.mem_map]
  exact ⟨fun there => there.elim (found.created triple) id, .inr⟩

/-- A manifest with a bundle of class 5 before a cport of it -/
theorem ap_manifest_parse_agrees_one :
    ∃ iface, apManifestParse 0 GbInterface.create
        [20, 0, 0, 1, 8, 0, 3, 0, 1, 5, 0, 0, 8, 0, 4, 0, 3, 0, 1, 2] = (0, iface) ∧
      (3, 1, 2) ∈ iface.created ∧ iface.protocolOf 1 3 = some 2 := by
  have accepted : manifestParse 5 [20, 0, 0, 1, 8, 0, 3, 0, 1, 5, 0, 0, 8, 0, 4, 0, 3, 0, 1, 2] [] =
      some (true, [⟨3, 2, 5⟩]) := by
    decide +kernel
  have cport : bundledCports [20, 0, 0, 1, 8, 0, 3, 0, 1, 5, 0, 0, 8, 0, 4, 0, 3, 0, 1, 2] =
      [[8, 0, 4, 0, 3, 0, 1, 2]] := by
    decide +kernel
  obtain ⟨-, iface, parsed, created, tables⟩ := ap_manifest_parse_agrees 5 0 _ _ _ accepted
  refine ⟨iface, parsed, (created _).mpr ?_, ?_⟩
  · rw [cport]
    exact ⟨_, List.mem_cons_self, by decide⟩
  · rw [tables, cport]
    decide

/-- Descriptors that are valid, with no id in two bundles or in two cports -/
structure WellFormed (records : List (List UInt8)) : Prop where
  some : records ≠ []
  valid : ∀ record ∈ records, Valid record
  bundles : ((records.filter fun desc => descType desc = typeBundle).map bundleId).Nodup
  cports : ((records.filter fun desc => descType desc = typeCport).map cportId).Nodup

/-- A manifest with these descriptors behind its header -/
structure Holds (data : List UInt8) (records : List (List UInt8)) : Prop where
  header : 4 ≤ data.length
  size : le16 data 0 = data.length
  split : data.drop 4 = records.flatten

def IsBundle (bundle : ℕ) (desc : List UInt8) : Prop :=
  descType desc = typeBundle ∧ bundleId desc = bundle ∧ bundleClass desc ≠ classControl

instance (bundle : ℕ) (desc : List UInt8) : Decidable (IsBundle bundle desc) := inferInstanceAs (Decidable (_ ∧ _))

/-- The bundle that the descriptors describe for an id, whatever their order is -/
def describedBundle (records : List (List UInt8)) (bundle : ℕ) : Option GbBundle :=
  (records.find? fun desc => IsBundle bundle desc).map fun desc =>
    ⟨bundleClass desc, fun id =>
      ((bundled records records).find? fun desc => cportId desc = id ∧ cportBundle desc = bundle).map cportProtocol⟩

/-- No cport descriptor stands behind the descriptor of its bundle, unless the cport or the bundle is for control. -/
def CportsFirst (records : List (List UInt8)) : Prop :=
  ∀ before desc after, records = before ++ desc :: after → descType desc = typeCport → cportId desc ≠ controlCport →
    ¬HasBundle before (cportBundle desc)

section Order
variable {records later : List (List UInt8)} {iface : GbInterface} {bundle : ℕ}

variable {others : List (List UInt8)}

/-- A permutation of a well-formed manifest is well formed. -/
theorem WellFormed.perm (formed : WellFormed records) (same : others.Perm records) :
    WellFormed others where
  some none := formed.some (nil_perm.mp (none ▸ same))
  valid record there := formed.valid record (same.mem_iff.mp there)
  bundles := ((same.filter _).map _).nodup_iff.mpr formed.bundles
  cports := ((same.filter _).map _).nodup_iff.mpr formed.cports

theorem hasBundle_perm (same : others.Perm records) (bundle : ℕ) :
    HasBundle others bundle ↔ HasBundle records bundle :=
  exists_congr fun _ => and_congr_left fun _ => same.mem_iff

theorem bundled_perm (same : others.Perm records) :
    (bundled others others).Perm (bundled records records) := by
  have known : bundled others others = bundled records others := by
    unfold bundled
    simp only [hasBundle_perm same]
  rw [known]
  exact (same.filter _).filter _

theorem WellFormed.one_bundle (formed : WellFormed records) {desc other : List UInt8} (there : desc ∈ records)
    (otherThere : other ∈ records) (is : IsBundle bundle desc) (otherIs : IsBundle bundle other) : desc = other :=
  inj_on_of_nodup_map formed.bundles (mem_filter.mpr ⟨there, decide_eq_true is.1⟩)
    (mem_filter.mpr ⟨otherThere, decide_eq_true otherIs.1⟩) (is.2.1.trans otherIs.2.1.symm)

theorem WellFormed.one_cport (formed : WellFormed records) {desc other : List UInt8}
    (there : desc ∈ bundled records records) (otherThere : other ∈ bundled records records)
    (same : cportId desc = cportId other) : desc = other := by
  obtain ⟨listed, cport, -⟩ := mem_bundled.mp there
  obtain ⟨otherListed, otherCport, -⟩ := mem_bundled.mp otherThere
  exact inj_on_of_nodup_map formed.cports (mem_filter.mpr ⟨listed, decide_eq_true cport⟩)
    (mem_filter.mpr ⟨otherListed, decide_eq_true otherCport⟩) same

theorem WellFormed.describedBundle_perm (formed : WellFormed records)
    (same : others.Perm records) : describedBundle others = describedBundle records := by
  funext bundle
  have bundles : (others.find? fun desc => IsBundle bundle desc) = records.find? fun desc => IsBundle bundle desc :=
    find?_perm same fun desc there other otherThere is otherIs =>
      formed.one_bundle there otherThere (of_decide_eq_true is) (of_decide_eq_true otherIs)
  have cports (id : ℕ) : ((bundled others others).find? fun desc => cportId desc = id ∧ cportBundle desc = bundle) =
      (bundled records records).find? fun desc => cportId desc = id ∧ cportBundle desc = bundle :=
    find?_perm (bundled_perm same) fun desc there other otherThere is otherIs =>
      formed.one_cport there otherThere ((of_decide_eq_true is).1.trans (of_decide_eq_true otherIs).1.symm)
  unfold describedBundle
  simp only [bundles, cports]

theorem bundles_eq (iface : GbInterface) (bundle : ℕ) :
    iface.bundles bundle = (iface.classOf bundle).map fun bundleClass => ⟨bundleClass, iface.protocolOf bundle⟩ := by
  unfold GbInterface.classOf GbInterface.protocolOf
  cases iface.bundles bundle <;> rfl

theorem applyAgain_classOf (iface : GbInterface) (desc : List UInt8) (bundle : ℕ) :
    (applyAgain iface desc).classOf bundle = iface.classOf bundle := by
  unfold applyAgain
  split
  · exact addCport_classOf iface desc bundle
  · rfl

theorem applyFirst_classOf (iface : GbInterface) (desc : List UInt8) (bundle : ℕ) :
    (applyFirst iface desc).classOf bundle =
      if IsBundle bundle desc then some (bundleClass desc) else iface.classOf bundle := by
  unfold applyFirst
  by_cases isBundle : descType desc = typeBundle
  · rw [if_pos isBundle]
    unfold addBundle GbInterface.classOf
    by_cases control : bundleClass desc = classControl
    · rw [if_pos control, if_neg fun is => is.2.2 control]
    · rw [if_neg control]
      dsimp only
      rw [update_apply]
      by_cases own : bundle = bundleId desc
      · rw [if_pos own, if_pos ⟨isBundle, own.symm, control⟩]
        rfl
      · rw [if_neg own, if_neg fun is => own is.2.1.symm]
  · have other : ¬IsBundle bundle desc := fun is => isBundle is.1
    rw [if_neg isBundle, if_neg other]
    split
    · exact addCport_classOf iface desc bundle
    · rfl

theorem foldl_applyAgain_classOf (later : List (List UInt8)) (iface : GbInterface) (bundle : ℕ) :
    (later.foldl applyAgain iface).classOf bundle = iface.classOf bundle := by
  induction later generalizing iface with
  | nil => rfl
  | cons desc later ih => rw [foldl_cons, ih, applyAgain_classOf]

theorem foldl_applyFirst_classOf (later : List (List UInt8)) (iface : GbInterface) (bundle : ℕ) :
    (later.foldl applyFirst iface).classOf bundle =
      ((later.reverse.find? fun desc => IsBundle bundle desc).map bundleClass).or (iface.classOf bundle) := by
  induction later generalizing iface with
  | nil => rfl
  | cons desc later ih =>
    rw [foldl_cons, ih, applyFirst_classOf, reverse_cons, List.find?_append, Option.map_or, Option.or_assoc]
    congr 1
    by_cases is : IsBundle bundle desc
    · rw [if_pos is, List.find?_cons_of_pos (by simpa using is)]
      rfl
    · rw [if_neg is, List.find?_cons_of_neg (by simpa using is)]
      rfl

theorem Found.foldl_created (found : Found records iface) (later : List (List UInt8)) :
    (later.foldl applyFirst iface).created = [] ↔ iface.created = [] ∧
      ∀ middle desc after, later = middle ++ desc :: after → descType desc = typeCport → cportId desc ≠ controlCport →
        ¬HasBundle (records ++ middle) (cportBundle desc) := by
  induction later generalizing records iface with
  | nil => exact ⟨fun none => ⟨none, fun middle _ _ same => absurd same (by simp)⟩, And.left⟩
  | cons desc later ih =>
    have first : (applyFirst iface desc).created = [] ↔ iface.created = [] ∧
        (descType desc = typeCport → cportId desc ≠ controlCport → ¬HasBundle records (cportBundle desc)) := by
      rw [← found.bundles]
      unfold applyFirst
      by_cases isBundle : descType desc = typeBundle
      · have created : (addBundle iface desc).created = iface.created := by
          unfold addBundle
          split <;> rfl
        rw [if_pos isBundle, created]
        exact (and_iff_left fun cport => absurd (isBundle.symm.trans cport) (by decide)).symm
      · rw [if_neg isBundle]
        by_cases cport : descType desc = typeCport
        · rw [if_pos cport, addCport_created, append_eq_nil_iff]
          refine and_congr_right fun _ => ?_
          simp [cport]
        · rw [if_neg cport]
          exact (and_iff_left fun is => absurd is cport).symm
    rw [foldl_cons, ih (found.next desc), first, and_assoc]
    refine and_congr_right fun _ => ⟨?_, fun all => ⟨?_, ?_⟩⟩
    · rintro ⟨own, rest⟩ middle other after same
      cases middle with
      | nil =>
        obtain ⟨rfl, rfl⟩ := cons.inj same
        rwa [append_nil]
      | cons _ middle =>
        obtain ⟨rfl, rfl⟩ := cons.inj same
        have later := rest middle other after rfl
        rwa [append_assoc] at later
    · have own := all [] desc later rfl
      rwa [append_nil] at own
    · intro middle other after same
      have later := all (desc :: middle) other after (congrArg (cons desc) same)
      rwa [append_assoc]

theorem Found.bundles_eq (found : Found records (records.foldl applyFirst GbInterface.create))
    (formed : WellFormed records) (bundle : ℕ) :
    (records.foldl applyAgain (records.foldl applyFirst GbInterface.create)).bundles bundle =
      describedBundle records bundle := by
  have classes : (records.reverse.find? fun desc => IsBundle bundle desc) = records.find? fun desc => IsBundle bundle desc :=
    find?_perm (reverse_perm records) fun desc there other otherThere is otherIs =>
      formed.one_bundle there otherThere (of_decide_eq_true is) (of_decide_eq_true otherIs)
  have cports (id : ℕ) :
      ((bundled records records).reverse.find? fun desc => cportId desc = id ∧ cportBundle desc = bundle) =
        (bundled records records).find? fun desc => cportId desc = id ∧ cportBundle desc = bundle :=
    find?_perm (reverse_perm _) fun desc there other otherThere is otherIs =>
      formed.one_cport there otherThere ((of_decide_eq_true is).1.trans (of_decide_eq_true otherIs).1.symm)
  have tables := found.protocolOf bundle
  simp only [cports] at tables
  have nothing : GbInterface.create.classOf bundle = none := rfl
  rw [Manifest.bundles_eq, foldl_applyAgain_classOf, foldl_applyFirst_classOf, classes, nothing, Option.or_none,
    Option.map_map, funext tables]
  rfl

/-- The first pass creates no cport exactly when the cports come first. -/
theorem created_nil_iff (records : List (List UInt8)) :
    (records.foldl applyFirst GbInterface.create).created = [] ↔ CportsFirst records := by
  rw [Found.create.foldl_created]
  exact and_iff_right rfl

end Order

/-- The AP builds the same bundles and cports from every order of well-formed descriptors. It creates each cport once if
no cport descriptor stands behind the descriptor of its bundle, and only then: its second loop creates again every cport
that the first loop has created. -/
theorem ap_manifest_order (nread : Int) (records others : List (List UInt8)) (data : List UInt8)
    (formed : WellFormed records) (order : others.Perm records) (holds : Holds data others) :
    ∃ iface, apManifestParse nread GbInterface.create data = (0, iface) ∧ iface.bundles = describedBundle records ∧
      (iface.created.Perm ((bundled records records).map tripleOf) ↔ CportsFirst others) := by
  have formedOther := formed.perm order
  have found := Found.create.foldl others
  rw [List.nil_append] at found
  refine ⟨_, apManifestParse_valid nread formedOther.some holds.header holds.size holds.split formedOther.valid, ?_, ?_⟩
  · rw [← formed.describedBundle_perm order]
    funext bundle
    exact found.bundles_eq formedOther bundle
  · rw [foldl_applyAgain_created _ found.bundles, ← created_nil_iff]
    have same := (bundled_perm order).map tripleOf
    constructor
    · intro once
      have length := once.length_eq
      rw [List.length_append, same.length_eq] at length
      exact List.eq_nil_of_length_eq_zero (by omega)
    · intro none
      rwa [none, List.nil_append]

def bundleDesc : List UInt8 := [8, 0, 3, 0, 1, 5, 0, 0]

def cportDesc : List UInt8 := [8, 0, 4, 0, 3, 0, 1, 2]

/-- A cport before its bundle is created once. -/
theorem ap_manifest_order_cport_first :
    ∃ iface, apManifestParse 0 GbInterface.create ([20, 0, 0, 1] ++ cportDesc ++ bundleDesc) = (0, iface) ∧
      iface.created.Perm [(3, 1, 2)] := by
  have valid : ∀ record ∈ [bundleDesc, cportDesc], Valid record :=
    List.forall_mem_cons.mpr ⟨⟨by decide, 8, by decide⟩, List.forall_mem_singleton.mpr ⟨by decide, 8, by decide⟩⟩
  have formed : WellFormed [bundleDesc, cportDesc] := ⟨by decide, valid, by decide, by decide⟩
  obtain ⟨iface, parsed, -, once⟩ := ap_manifest_order 0 [bundleDesc, cportDesc] [cportDesc, bundleDesc]
    ([20, 0, 0, 1] ++ cportDesc ++ bundleDesc) formed (List.Perm.swap _ _ _) ⟨by decide, by decide, by decide⟩
  refine ⟨iface, parsed, once.mpr ?_⟩
  intro before desc after same cport _
  cases before with
  | nil =>
    rintro ⟨other, there, -⟩
    cases there
  | cons first before =>
    obtain ⟨rfl, rest⟩ := List.cons.inj same
    cases before with
    | nil =>
      obtain ⟨rfl, -⟩ := List.cons.inj rest
      exact absurd cport (by decide)
    | cons second before => exact absurd (List.cons.inj rest).2.symm (by simp)

/-- A cport behind its bundle is created twice. -/
theorem ap_manifest_order_twice :
    (apManifestParse 0 GbInterface.create ([20, 0, 0, 1] ++ bundleDesc ++ cportDesc)).2.created =
        [(3, 1, 2), (3, 1, 2)] ∧
      ¬(apManifestParse 0 GbInterface.create ([20, 0, 0, 1] ++ bundleDesc ++ cportDesc)).2.created.Perm
        ((bundled [bundleDesc, cportDesc] [bundleDesc, cportDesc]).map tripleOf) := by
  have twice : (apManifestParse 0 GbInterface.create ([20, 0, 0, 1] ++ bundleDesc ++ cportDesc)).2.created =
      [(3, 1, 2), (3, 1, 2)] := by
    decide +kernel
  refine ⟨twice, fun once => ?_⟩
  rw [twice] at once
  exact absurd once.length_eq (by decide)

end Phabos.Manifest
