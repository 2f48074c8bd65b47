import Phabos.Construction.Greybus.Manifest

namespace Phabos.Manifest
open Library List Option

/-- A bundle that is made and has memory also has room in the table of the bundles. -/
def Memory.HoldsBundle (memory : Memory) (desc : List UInt8) : Prop :=
  ¬(desc.length < 8 ∨ desc.length < descSize desc) → bundleClass desc ≠ classControl →
    memory.bundle desc.length = true → memory.bundles desc.length = true

/-- A cport of a bundle that is known has memory. -/
def Memory.HoldsCport (memory : Memory) (iface : GbInterface) (desc : List UInt8) : Prop :=
  ¬(desc.length < 8 ∨ desc.length < descSize desc) → cportId desc ≠ controlCport →
    iface.bundles (cportBundle desc) ≠ none → memory.cport desc.length = true

/-- The allocations that the first loop does not test succeed for a descriptor. -/
structure Memory.Holds (memory : Memory) (iface : GbInterface) (desc : List UInt8) : Prop where
  bundle : descType desc = typeBundle → memory.HoldsBundle desc
  cport : descType desc = typeCport → memory.HoldsCport iface desc

/-- The switch of the first loop, where a bundle without memory is passed over -/
def parseDescriptorWith (memory : Memory) (iface : GbInterface) (desc : List UInt8) : Int × GbInterface :=
  if descType desc = typeBundle ∧ memory.bundle desc.length = false then ((parseDescriptor iface desc).1, iface)
  else parseDescriptor iface desc

section Reads
variable {data : List UInt8} {manifestSize off : ℕ} (memory : Memory) (fits : manifestSize ≤ data.length)

/-- The bytes from an offset to the declared end of a manifest -/
abbrev bytesFrom (data : List UInt8) (manifestSize off : ℕ) : List UInt8 := (data.take manifestSize).drop off

include fits

theorem bytesFrom_length : (bytesFrom data manifestSize off).length = manifestSize - off := by
  rw [length_drop, length_take]
  omega

theorem readByte_eq {field : ℕ} (inside : off + field < manifestSize) :
    readByte data (off + field) = some (byteAt (bytesFrom data manifestSize off) field) := by
  have value := List.getElem?_eq_getElem (show off + field < data.length by omega)
  unfold readByte byteAt
  rw [value, List.getD_eq_getElem?_getD, List.getElem?_drop, List.getElem?_take_of_lt inside, value]
  rfl

theorem readLe16_eq {field : ℕ} (inside : off + field + 1 < manifestSize) :
    readLe16 data (off + field) = some (le16 (bytesFrom data manifestSize off) field) := by
  unfold readLe16 le16
  rw [readByte_eq fits (by omega), bind_some, Nat.add_assoc, readByte_eq fits (by omega)]
  rfl

theorem readSize_eq (iface : GbInterface) {size : ℕ} (two : 2 ≤ size) (parse : ℕ → Option (Int × GbInterface)) :
    readSize size iface data off (manifestSize - off) parse =
      if (bytesFrom data manifestSize off).length < size ∨
          (bytesFrom data manifestSize off).length < descSize (bytesFrom data manifestSize off) then
        some (- EINVAL, iface)
      else parse (descSize (bytesFrom data manifestSize off)) := by
  have length : (bytesFrom data manifestSize off).length = manifestSize - off := bytesFrom_length fits
  unfold readSize
  rw [length]
  by_cases small : manifestSize - off < size
  · rw [if_pos small, if_pos (Or.inl small)]
  · have read : readLe16 data (off + 0) = some (descSize (bytesFrom data manifestSize off)) :=
      readLe16_eq fits (by omega)
    rw [Nat.add_zero] at read
    rw [if_neg small, read, bind_some]
    by_cases large : manifestSize - off < descSize (bytesFrom data manifestSize off)
    · rw [if_pos large, if_pos (Or.inr large)]
    · rw [if_neg large, if_neg (not_or.mpr ⟨small, large⟩)]

theorem readBundle_eq (iface : GbInterface) (bundle : descType (bytesFrom data manifestSize off) = typeBundle)
    (result : Int × GbInterface) : readBundle memory iface data off (manifestSize - off) = some result ↔
      memory.HoldsBundle (bytesFrom data manifestSize off) ∧
        parseDescriptorWith memory iface (bytesFrom data manifestSize off) = result := by
  have length : (bytesFrom data manifestSize off).length = manifestSize - off := bytesFrom_length fits
  have parsed : parseDescriptor iface (bytesFrom data manifestSize off) =
      manifestParseBundle iface (bytesFrom data manifestSize off) := by
    unfold parseDescriptor
    rw [bundle]
    rfl
  unfold readBundle parseDescriptorWith Memory.HoldsBundle
  rw [readSize_eq fits iface (by decide), parsed, length]
  unfold manifestParseBundle
  rw [length]
  by_cases refused : manifestSize - off < 8 ∨ manifestSize - off < descSize (bytesFrom data manifestSize off)
  · simp [refused]
  rw [if_neg refused, if_neg refused, readByte_eq fits (by omega), readByte_eq fits (by omega), bind_some, bind_some]
  change (if bundleClass _ = classControl then _ else _) = _ ↔ _
  by_cases control : bundleClass (bytesFrom data manifestSize off) = classControl
  · simp [control]
  rw [if_neg control, if_neg control]
  cases memory.bundle (manifestSize - off) with
  | false => simp [bundle]
  | true =>
    cases memory.bundles (manifestSize - off) with
    | false => simp [refused, control]
    | true =>
      simp [refused]
      rfl

theorem readCport_eq (iface : GbInterface) (result : Int × GbInterface) :
    readCport memory iface data off (manifestSize - off) = some result ↔
      memory.HoldsCport iface (bytesFrom data manifestSize off) ∧
        manifestParseCport iface (bytesFrom data manifestSize off) = result := by
  have length : (bytesFrom data manifestSize off).length = manifestSize - off := bytesFrom_length fits
  unfold readCport manifestParseCport Memory.HoldsCport
  rw [readSize_eq fits iface (by decide), length]
  by_cases refused : manifestSize - off < 8 ∨ manifestSize - off < descSize (bytesFrom data manifestSize off)
  · simp [refused]
  rw [if_neg refused, if_neg refused, readByte_eq fits (by omega), readByte_eq fits (by omega),
    readLe16_eq fits (by omega), bind_some]
  change (if cportId _ = controlCport then _ else _) = _ ↔ _
  by_cases control : cportId (bytesFrom data manifestSize off) = controlCport
  · simp [control]
  rw [if_neg control, if_neg control, bind_some]
  unfold cportBundle
  cases iface.bundles (byteAt (bytesFrom data manifestSize off) 6).toNat with
  | none => simp
  | some bundle =>
    cases memory.cport (manifestSize - off) with
    | false => simp [refused, control]
    | true =>
      simp [refused]
      rfl

/-- A descriptor is read as its bytes are parsed, if memory holds what it creates. -/
theorem readDescriptor_eq (room : off + 4 ≤ manifestSize) (iface : GbInterface) (result : Int × GbInterface) :
    readDescriptor memory iface data off (manifestSize - off) = some result ↔
      memory.Holds iface (bytesFrom data manifestSize off) ∧
        parseDescriptorWith memory iface (bytesFrom data manifestSize off) = result := by
  unfold readDescriptor
  rw [readByte_eq fits (by omega), bind_some]
  change (if descType (bytesFrom data manifestSize off) = typeInterface then _
    else if descType (bytesFrom data manifestSize off) = typeString then _
    else if descType (bytesFrom data manifestSize off) = typeBundle then _
    else if descType (bytesFrom data manifestSize off) = typeCport then _ else _) = _ ↔ _
  by_cases bundle : descType (bytesFrom data manifestSize off) = typeBundle
  · rw [if_neg (by rw [bundle]; decide), if_neg (by rw [bundle]; decide), if_pos bundle,
      readBundle_eq memory fits iface bundle]
    refine and_congr_left fun _ => ⟨fun holds => ⟨fun _ => holds, fun cport => ?_⟩, fun holds => holds.bundle bundle⟩
    exact absurd (bundle.symm.trans cport) (by decide)
  have plain : parseDescriptorWith memory iface (bytesFrom data manifestSize off) =
      parseDescriptor iface (bytesFrom data manifestSize off) := if_neg fun both => bundle both.1
  rw [if_neg bundle, plain]
  unfold parseDescriptor
  rw [if_neg bundle]
  by_cases cport : descType (bytesFrom data manifestSize off) = typeCport
  · rw [if_neg (by rw [cport]; decide), if_neg (by rw [cport]; decide), if_pos cport,
      if_neg (by rw [cport]; decide), if_neg (by rw [cport]; decide), if_pos cport, readCport_eq memory fits iface]
    refine and_congr_left fun _ => ⟨fun holds => ⟨fun other => absurd other bundle, fun _ => holds⟩, fun holds => ?_⟩
    exact holds.cport cport
  have holds : memory.Holds iface (bytesFrom data manifestSize off) :=
    ⟨fun other => absurd other bundle, fun other => absurd other cport⟩
  rw [if_neg cport, if_neg cport, and_iff_right holds]
  by_cases interface : descType (bytesFrom data manifestSize off) = typeInterface
  · rw [if_pos interface, if_pos interface]
    unfold readInterface manifestParseInterface
    rw [readSize_eq fits iface (by decide), ← apply_ite some, some_inj]
  rw [if_neg interface, if_neg interface]
  by_cases string : descType (bytesFrom data manifestSize off) = typeString
  · rw [if_pos string, if_pos string]
    unfold readString manifestParseString
    rw [readSize_eq fits iface (by decide), ← apply_ite some, some_inj]
  rw [if_neg string, if_neg string, some_inj]

theorem readDescriptorAgain_eq (room : off + 4 ≤ manifestSize) (nread : Int) (iface : GbInterface)
    (result : Int × GbInterface) : readDescriptorAgain memory nread iface data off (manifestSize - off) = some result ↔
      (descType (bytesFrom data manifestSize off) = typeCport →
        memory.HoldsCport iface (bytesFrom data manifestSize off)) ∧
        parseDescriptorAgain nread iface (bytesFrom data manifestSize off) = result := by
  have read : readLe16 data (off + 0) = some (descSize (bytesFrom data manifestSize off)) :=
    readLe16_eq fits (by omega)
  rw [Nat.add_zero] at read
  unfold readDescriptorAgain parseDescriptorAgain
  rw [readByte_eq fits (by omega), bind_some, read]
  change (if descType (bytesFrom data manifestSize off) = typeInterface ∨
      descType (bytesFrom data manifestSize off) = typeString ∨
      descType (bytesFrom data manifestSize off) = typeBundle then _
    else if descType (bytesFrom data manifestSize off) = typeCport then _ else _) = _ ↔ _
  by_cases cport : descType (bytesFrom data manifestSize off) = typeCport
  · rw [if_neg (by rw [cport]; decide), if_pos cport, if_neg (by rw [cport]; decide), if_pos cport,
      readCport_eq memory fits iface, forall_prop_of_true cport]
  rw [if_neg cport, if_neg cport, and_iff_right fun other => absurd other cport]
  split
  · exact some_inj
  · exact some_inj

end Reads

/-- A descriptor that the first loop does not accept: its size is 0 or larger than what is left, or its structure does
not fit into what is left, or its type is unknown. -/
def Refused (desc : List UInt8) : Prop :=
  descSize desc = 0 ∨ desc.length < descSize desc ∨ ∀ size ∈ structSize (descType desc), desc.length < size

/-- The descriptors one behind the other lead to one that is not accepted. -/
inductive Faulty : List UInt8 → Prop
  | here {desc : List UInt8} (room : 4 ≤ desc.length) (refused : Refused desc) : Faulty desc
  | later {desc : List UInt8} (room : 4 ≤ desc.length) (accepted : ¬Refused desc)
      (rest : Faulty (desc.drop (descSize desc))) : Faulty desc

/-- The descriptors one behind the other cover all bytes, each with room for its structure. -/
inductive Covered : List UInt8 → Prop
  | nil : Covered []
  | cons {desc : List UInt8} {size : ℕ} (type : structSize (descType desc) = some size) (sized : size ≤ descSize desc)
      (room : descSize desc ≤ desc.length) (rest : Covered (desc.drop (descSize desc))) : Covered desc

theorem Covered.front {desc : List UInt8} (covered : Covered desc) (some : desc ≠ []) :
    ∃ size, structSize (descType desc) = .some size ∧ size ≤ descSize desc ∧ descSize desc ≤ desc.length ∧
      Covered (desc.drop (descSize desc)) := by
  cases covered with
  | nil => exact absurd rfl some
  | cons type sized room rest => exact ⟨_, type, sized, room, rest⟩

theorem six_le_structSize {type : UInt8} {size : ℕ} (known : structSize type = some size) : 6 ≤ size := by
  unfold structSize at known
  split at known
  · exact (some.inj known) ▸ by decide
  split at known
  · exact (some.inj known) ▸ by decide
  split at known
  · exact (some.inj known) ▸ by decide
  split at known
  · exact (some.inj known) ▸ by decide
  · cases known

section Accepts
variable {desc : List UInt8}

theorem manifestParseBundle_fst (iface : GbInterface) :
    (manifestParseBundle iface desc).1 =
      if desc.length < 8 ∨ desc.length < descSize desc then - EINVAL else (descSize desc : Int) := by
  unfold manifestParseBundle
  split
  · rfl
  split
  · rfl
  · rfl

theorem manifestParseCport_fst (iface : GbInterface) :
    (manifestParseCport iface desc).1 =
      if desc.length < 8 ∨ desc.length < descSize desc then - EINVAL else (descSize desc : Int) := by
  unfold manifestParseCport
  split
  · rfl
  split
  · rfl
  · cases iface.bundles (cportBundle desc) <;> rfl

theorem manifestParseInterface_fst (iface : GbInterface) :
    (manifestParseInterface iface desc).1 =
      if desc.length < 8 ∨ desc.length < descSize desc then - EINVAL else (descSize desc : Int) := by
  unfold manifestParseInterface
  split
  · rfl
  · rfl

theorem manifestParseString_fst (iface : GbInterface) :
    (manifestParseString iface desc).1 =
      if desc.length < 6 ∨ desc.length < descSize desc then - EINVAL else (descSize desc : Int) := by
  unfold manifestParseString
  split
  · rfl
  · rfl

theorem room_iff {size : ℕ} (known : structSize (descType desc) = some size) :
    (desc.length < descSize desc ∨ ∀ size ∈ structSize (descType desc), desc.length < size) ↔
      desc.length < size ∨ desc.length < descSize desc := by
  rw [known]
  constructor
  · rintro (large | small)
    · exact Or.inr large
    · exact Or.inl (small size rfl)
  · rintro (small | large)
    · refine Or.inr fun other same => ?_
      obtain rfl := some.inj same
      exact small
    · exact Or.inl large

theorem parseDescriptor_fst (iface : GbInterface) :
    (parseDescriptor iface desc).1 =
      if desc.length < descSize desc ∨ ∀ size ∈ structSize (descType desc), desc.length < size then - EINVAL
      else (descSize desc : Int) := by
  unfold parseDescriptor
  by_cases interface : descType desc = typeInterface
  · have known : structSize (descType desc) = some 8 := by rw [interface]; rfl
    simp only [room_iff known]
    rw [if_pos interface, manifestParseInterface_fst]
  rw [if_neg interface]
  by_cases string : descType desc = typeString
  · have known : structSize (descType desc) = some 6 := by rw [string]; rfl
    simp only [room_iff known]
    rw [if_pos string, manifestParseString_fst]
  rw [if_neg string]
  by_cases bundle : descType desc = typeBundle
  · have known : structSize (descType desc) = some 8 := by rw [bundle]; rfl
    simp only [room_iff known]
    rw [if_pos bundle, manifestParseBundle_fst]
  rw [if_neg bundle]
  by_cases cport : descType desc = typeCport
  · have known : structSize (descType desc) = some 8 := by rw [cport]; rfl
    simp only [room_iff known]
    rw [if_pos cport, manifestParseCport_fst]
  · have unknown : structSize (descType desc) = none := by
      unfold structSize
      rw [if_neg interface, if_neg string, if_neg bundle, if_neg cport]
    rw [if_neg cport, unknown, if_pos (Or.inr nofun)]

theorem parseDescriptorWith_fst (memory : Memory) (iface : GbInterface) :
    (parseDescriptorWith memory iface desc).1 = (parseDescriptor iface desc).1 := by
  unfold parseDescriptorWith
  split <;> rfl

theorem parseDescriptor_refused (refused : Refused desc) (iface : GbInterface) : (parseDescriptor iface desc).1 ≤ 0 := by
  rw [parseDescriptor_fst]
  split
  · decide
  · rename_i accepted
    obtain zero | other := refused
    · rw [zero]
      exact Int.le_refl 0
    · exact absurd other accepted

theorem parseDescriptor_accepted (accepted : ¬Refused desc) (iface : GbInterface) :
    (parseDescriptor iface desc).1 = descSize desc := by
  rw [parseDescriptor_fst, if_neg (fun other => accepted (Or.inr other))]

theorem parseDescriptorAgain_accepted (accepted : ¬Refused desc) (nread : Int) (iface : GbInterface) :
    (parseDescriptorAgain nread iface desc).1 = descSize desc := by
  unfold parseDescriptorAgain
  split
  · rfl
  rename_i other
  obtain ⟨interface, string, bundle⟩ := not_or.mp other |>.imp_right not_or.mp
  by_cases cport : descType desc = typeCport
  · have known : structSize (descType desc) = some 8 := by rw [cport]; rfl
    rw [if_pos cport, manifestParseCport_fst,
      if_neg (fun large => accepted (Or.inr ((room_iff known).mpr large)))]
  · have unknown : structSize (descType desc) = none := by
      unfold structSize
      rw [if_neg interface, if_neg string, if_neg bundle, if_neg cport]
    refine absurd (Or.inr (Or.inr ?_)) accepted
    rw [unknown]
    exact nofun

end Accepts

/-- Visited descriptors lie one behind the other from a start to a stop. -/
def Tiles : ℕ → ℕ → List Visit → Prop
  | start, stop, [] => stop ≤ start
  | start, stop, visit :: visits =>
    visit.off = start ∧ 0 < visit.nread ∧ start + visit.nread.toNat ≤ stop ∧
      Tiles (start + visit.nread.toNat) stop visits

/-- The declared size of each visited descriptor covers the structure of its type. -/
def Sized (data : List UInt8) (visits : List Visit) : Prop :=
  ∀ visit ∈ visits, ∃ size ∈ structSize (byteAt data (visit.off + 2)), (size : Int) ≤ visit.nread

/-- A walk over the descriptors meets its needs at each of them, up to the one that ends it. -/
inductive Supplied (meets : GbInterface → List UInt8 → Prop) (parse : GbInterface → List UInt8 → Int × GbInterface) :
    GbInterface → List UInt8 → Prop
  | short {iface : GbInterface} {desc : List UInt8} (few : desc.length < 4) : Supplied meets parse iface desc
  | step {iface : GbInterface} {desc : List UInt8} (met : meets iface desc)
      (rest : 0 < (parse iface desc).1 →
        Supplied meets parse (parse iface desc).2 (desc.drop (parse iface desc).1.toNat)) : Supplied meets parse iface desc

section Loop
variable {data : List UInt8} {manifestSize : ℕ} {read : GbInterface → ℕ → ℕ → Option (Int × GbInterface)}
  {parse : GbInterface → List UInt8 → Int × GbInterface} {meets : GbInterface → List UInt8 → Prop}

/-- A loop reads what its descriptors hold where its needs are met, and goes on by the declared size of one that is not
refused. -/
structure Follows (data : List UInt8) (manifestSize : ℕ) (read : GbInterface → ℕ → ℕ → Option (Int × GbInterface))
    (parse : GbInterface → List UInt8 → Int × GbInterface) (meets : GbInterface → List UInt8 → Prop) : Prop where
  fits : manifestSize ≤ data.length
  reads : ∀ off iface result, off + 4 ≤ manifestSize → (read iface off (manifestSize - off) = some result ↔
    meets iface (bytesFrom data manifestSize off) ∧ parse iface (bytesFrom data manifestSize off) = result)
  accepts : ∀ desc iface, ¬Refused desc → (parse iface desc).1 = descSize desc

theorem supplied_iff {iface : GbInterface} {desc : List UInt8} (long : 4 ≤ desc.length) :
    Supplied meets parse iface desc ↔ meets iface desc ∧ (0 < (parse iface desc).1 →
      Supplied meets parse (parse iface desc).2 (desc.drop (parse iface desc).1.toNat)) := by
  constructor
  · intro supplied
    cases supplied with
    | short few => omega
    | step met rest => exact ⟨met, rest⟩
  · exact fun both => Supplied.step both.1 both.2

theorem bytesFrom_drop (off size : ℕ) :
    (bytesFrom data manifestSize off).drop size = bytesFrom data manifestSize (off + size) := drop_drop

theorem byteAt_bytesFrom (fits : manifestSize ≤ data.length) {off : ℕ} (room : off + 4 ≤ manifestSize) :
    byteAt data (off + 2) = descType (bytesFrom data manifestSize off) := by
  have read : readByte data (off + 2) = some (byteAt (bytesFrom data manifestSize off) 2) :=
    readByte_eq fits (by omega)
  unfold readByte at read
  unfold descType byteAt at *
  rw [List.getD_eq_getElem?_getD, read]
  rfl

/-- A result that there is under a condition only -/
theorem some_or_none {Result : Type} {option : Option Result} {condition : Prop} {result : Result}
    (only : ∀ other, option = some other ↔ condition ∧ result = other) :
    condition ∧ option = some result ∨ ¬condition ∧ option = none := by
  by_cases met : condition
  · exact Or.inl ⟨met, (only result).mpr ⟨met, rfl⟩⟩
  · exact Or.inr ⟨met, eq_none_iff_forall_ne_some.mpr fun other same => met ((only other).mp same).1⟩

section
variable (follows : Follows data manifestSize read parse meets)
include follows

/-- A descriptor that is accepted leads on to the next one, if its needs are met. -/
theorem Follows.next {passes off : ℕ} (iface : GbInterface) (room : off + 4 ≤ manifestSize)
    (accepted : ¬Refused (bytesFrom data manifestSize off)) {iface' : GbInterface} {retval : Int} {visits : List Visit}
    (later : ∀ result, readLoop read manifestSize passes (off + descSize (bytesFrom data manifestSize off)) (parse iface (bytesFrom data manifestSize off)).2 = some result ↔ Supplied meets parse (parse iface (bytesFrom data manifestSize off)).2 (bytesFrom data manifestSize (off + descSize (bytesFrom data manifestSize off))) ∧ (retval, iface', visits) = result)
    (result : Int × GbInterface × List Visit) :
    readLoop read manifestSize (passes + 1) off iface = some result ↔
      Supplied meets parse iface (bytesFrom data manifestSize off) ∧
        (retval, iface', ⟨off, descSize (bytesFrom data manifestSize off)⟩ :: visits) = result := by
  have length : (bytesFrom data manifestSize off).length = manifestSize - off := bytesFrom_length follows.fits
  have value := follows.accepts _ iface accepted
  obtain ⟨zero, -⟩ := not_or.mp accepted
  rw [supplied_iff (by omega), value, forall_prop_of_true (by omega), Int.toNat_natCast, bytesFrom_drop, readLoop,
    if_pos room, bind_eq_some_iff]
  constructor
  · rintro ⟨parsed, here, rest⟩
    obtain ⟨met, rfl⟩ := (follows.reads off iface parsed room).mp here
    rw [if_neg (by omega), value, Int.toNat_natCast, Option.map_eq_some_iff] at rest
    obtain ⟨last, ran, rfl⟩ := rest
    obtain ⟨supplied, rfl⟩ := (later last).mp ran
    exact ⟨⟨met, supplied⟩, rfl⟩
  · rintro ⟨⟨met, supplied⟩, rfl⟩
    refine ⟨_, (follows.reads off iface _ room).mpr ⟨met, rfl⟩, ?_⟩
    rw [if_neg (by omega), value, Int.toNat_natCast, (later _).mpr ⟨supplied, rfl⟩]
    rfl

/-- Descriptors that are accepted are visited one by one, and they cover the manifest exactly when their bytes do. -/
theorem Follows.accepts_all {passes off : ℕ} (enough : manifestSize - off < passes) (iface : GbInterface)
    (accepted : ¬Faulty (bytesFrom data manifestSize off)) :
    ∃ iface' visits, (∀ result, readLoop read manifestSize passes off iface = some result ↔
        Supplied meets parse iface (bytesFrom data manifestSize off) ∧ (0, iface', visits) = result) ∧
      apParseLoop parse (bytesFrom data manifestSize off) iface = (0, iface') ∧
      (Tiles off manifestSize visits ∧ Sized data visits ↔ Covered (bytesFrom data manifestSize off)) := by
  induction passes generalizing off iface with
  | zero => exact absurd enough (Nat.not_lt_zero _)
  | succ passes inductionHypothesis =>
    have length : (bytesFrom data manifestSize off).length = manifestSize - off := bytesFrom_length follows.fits
    rw [apParseLoop]
    by_cases room : off + 4 ≤ manifestSize
    · have here : ¬Refused (bytesFrom data manifestSize off) :=
        fun refused => accepted (Faulty.here (by omega) refused)
      have value := follows.accepts _ iface here
      have later := accepted ∘ Faulty.later (by omega) here
      rw [bytesFrom_drop] at later
      obtain ⟨zero, large, -⟩ := not_or.mp here |>.imp_right not_or.mp
      obtain ⟨iface', visits, read', parsed, covers⟩ := @inductionHypothesis
        (off + descSize (bytesFrom data manifestSize off)) (by omega)
        (parse iface (bytesFrom data manifestSize off)).2 later
      rw [if_neg (by omega)]
      dsimp only
      rw [value, if_neg (by omega), Int.toNat_natCast, bytesFrom_drop, parsed]
      refine ⟨iface', _, follows.next iface room here read', rfl, ?_⟩
      have type := byteAt_bytesFrom follows.fits room
      constructor
      · rintro ⟨⟨-, -, -, tiles⟩, sized⟩
        obtain ⟨size, known, le⟩ := sized _ mem_cons_self
        rw [Int.toNat_natCast] at tiles
        rw [type] at known
        have rest := covers.mp ⟨tiles, fun visit there => sized visit (mem_cons_of_mem _ there)⟩
        rw [← bytesFrom_drop] at rest
        exact Covered.cons known (by dsimp only at le; omega) (by omega) rest
      · intro covered
        obtain ⟨size, known, le, inside, rest⟩ := covered.front (length_pos_iff.mp (by omega))
        rw [bytesFrom_drop] at rest
        obtain ⟨tiles, sizes⟩ := covers.mpr rest
        refine ⟨⟨rfl, by dsimp only; omega, by dsimp only; omega, tiles⟩, ?_⟩
        intro visit there
        cases there with
        | head => exact ⟨size, type ▸ known, by dsimp only; omega⟩
        | tail _ there => exact sizes visit there
    · have few : (bytesFrom data manifestSize off).length < 4 := by omega
      have ended (result : Int × GbInterface × List Visit) :
          readLoop read manifestSize (passes + 1) off iface = some result ↔
            Supplied meets parse iface (bytesFrom data manifestSize off) ∧ (0, iface, []) = result := by
        rw [readLoop, if_neg room, some_inj, and_iff_right (Supplied.short few)]
      rw [if_pos few]
      refine ⟨iface, [], ended, rfl, ?_⟩
      constructor
      · rintro ⟨stop, -⟩
        have empty : bytesFrom data manifestSize off = [] := by
          change manifestSize ≤ off at stop
          exact length_eq_zero_iff.mp (by omega)
        rw [empty]
        exact Covered.nil
      · intro covered
        refine ⟨?_, fun _ => nofun⟩
        change manifestSize ≤ off
        by_contra some
        obtain ⟨size, known, le, inside, -⟩ := covered.front (length_pos_iff.mp (by omega))
        have six := six_le_structSize known
        omega

/-- A walk that leads to a descriptor that is refused ends there. -/
theorem Follows.stops (refuses : ∀ desc iface, Refused desc → (parse iface desc).1 ≤ 0) {passes off : ℕ}
    (enough : manifestSize - off < passes) (iface : GbInterface) (faulty : Faulty (bytesFrom data manifestSize off)) :
    ∃ iface' before last, (∀ result, readLoop read manifestSize passes off iface = some result ↔
        Supplied meets parse iface (bytesFrom data manifestSize off) ∧ (- EINVAL, iface', before ++ [last]) = result) ∧
      apParseLoop parse (bytesFrom data manifestSize off) iface = (- EINVAL, iface') ∧
      (∀ visit ∈ before, 0 < visit.nread) ∧ last.nread ≤ 0 := by
  induction passes generalizing off iface with
  | zero => exact absurd enough (Nat.not_lt_zero _)
  | succ passes inductionHypothesis =>
    have length : (bytesFrom data manifestSize off).length = manifestSize - off := bytesFrom_length follows.fits
    have long : 4 ≤ (bytesFrom data manifestSize off).length := by
      cases faulty with
      | here room => exact room
      | later room => exact room
    have room : off + 4 ≤ manifestSize := by omega
    rw [apParseLoop, if_neg (by omega)]
    dsimp only
    by_cases refused : Refused (bytesFrom data manifestSize off)
    · have value := refuses _ iface refused
      rw [if_pos value]
      refine ⟨_, [], ⟨off, (parse iface (bytesFrom data manifestSize off)).1⟩, fun result => ?_, rfl, nofun, value⟩
      rw [supplied_iff long, and_iff_left fun more => absurd more (not_lt.mpr value), readLoop, if_pos room,
        bind_eq_some_iff]
      constructor
      · rintro ⟨parsed, here, ended⟩
        obtain ⟨met, rfl⟩ := (follows.reads off iface parsed room).mp here
        rw [if_pos value] at ended
        exact ⟨met, some_inj.mp ended⟩
      · rintro ⟨met, rfl⟩
        exact ⟨_, (follows.reads off iface _ room).mpr ⟨met, rfl⟩, if_pos value⟩
    · have later : Faulty ((bytesFrom data manifestSize off).drop (descSize (bytesFrom data manifestSize off))) := by
        cases faulty with
        | here _ here => exact absurd here refused
        | later _ _ rest => exact rest
      rw [bytesFrom_drop] at later
      have value := follows.accepts _ iface refused
      obtain ⟨zero, large, -⟩ := not_or.mp refused |>.imp_right not_or.mp
      obtain ⟨iface', before, last, read', parsed, accepted, error⟩ :=
        @inductionHypothesis (off + descSize (bytesFrom data manifestSize off)) (by omega)
          (parse iface (bytesFrom data manifestSize off)).2 later
      rw [value, if_neg (by omega), Int.toNat_natCast, bytesFrom_drop, parsed]
      refine ⟨iface', ⟨off, descSize (bytesFrom data manifestSize off)⟩ :: before, last,
        follows.next iface room refused read', rfl, ?_, error⟩
      intro visit there
      cases there with
      | head => dsimp only; omega
      | tail _ there => exact accepted visit there

end

end Loop

/-- The visited descriptors of an accepted manifest tile the bytes behind the header, each with room for its structure,
and a manifest that is not accepted is left at its faulty descriptor. -/
structure Right (data : List UInt8) (parsed : Parsed) : Prop where
  tiles : parsed.retval = 0 → Tiles 4 (le16 data 0) parsed.first ∧ Tiles 4 (le16 data 0) parsed.second
  sized : parsed.retval = 0 → Sized data parsed.first ∧ Sized data parsed.second
  stops : parsed.retval ≠ 0 → parsed.second = [] ∧ (parsed.first = [] ∨ ∃ before last,
    parsed.first = before ++ [last] ∧ (∀ visit ∈ before, 0 < visit.nread) ∧ last.nread ≤ 0)

/-- The header is refused: fewer bytes than a header and a descriptor, or than the header says -/
def Headless (data : List UInt8) : Prop := data.length < 4 + 4 ∨ data.length < le16 data 0

/-- No allocation that is not tested fails in the first loop, which stops at a descriptor that is refused, and none in the
second one, which has the bundles of the first. -/
structure Fed (memory again : Memory) (nread : Int) (iface : GbInterface) (desc : List UInt8) : Prop where
  first : Supplied memory.Holds (parseDescriptorWith memory) iface desc
  second : ¬Faulty desc → Supplied (fun iface desc => descType desc = typeCport → again.HoldsCport iface desc)
    (parseDescriptorAgain nread) (apParseLoop (parseDescriptorWith memory) desc iface).2 desc

/-- The header is refused, or the allocations succeed and the descriptors lead to one that is refused, or they cover the
bytes behind the header. -/
def Checked (memory again : Memory) (nread : Int) (iface : GbInterface) (data : List UInt8) : Prop :=
  Headless data ∨ Fed memory again nread iface (bytesFrom data (le16 data 0) 4) ∧
    (Faulty (bytesFrom data (le16 data 0) 4) ∨ Covered (bytesFrom data (le16 data 0) 4))

/-- For all bytes and all outcomes of the allocations the parser ends, reads no byte behind the given ones and has the right
result exactly where its checks find the fault, or there is none, and no allocation fails that it does not test. Its
result is then that of the descriptors one by one. -/
theorem ap_manifest_parse_right_iff (memory again : Memory) (nread : Int) (iface : GbInterface) (data : List UInt8) :
    ((∃ parsed, apManifestParseReads memory again nread iface data = some parsed ∧ Right data parsed) ↔
      Checked memory again nread iface data) ∧
    ((∀ left, memory.bundle left = true) → ∀ parsed, apManifestParseReads memory again nread iface data = some parsed →
      apManifestParse nread iface data = (parsed.retval, parsed.iface)) := by
  have refused : Right data ⟨- EINVAL, iface, [], []⟩ :=
    ⟨nofun, nofun, fun _ => ⟨rfl, Or.inl rfl⟩⟩
  unfold apManifestParseReads apManifestParse
  by_cases short : data.length < 4 + 4
  · rw [if_pos short, if_pos short]
    refine ⟨iff_of_true ⟨_, rfl, refused⟩ (Or.inl (Or.inl short)), fun _ parsed same => ?_⟩
    obtain rfl := Option.some.inj same
    rfl
  rw [if_neg short, if_neg short]
  have size : readLe16 data (0 + 0) = some (le16 (bytesFrom data data.length 0) 0) :=
    readLe16_eq (Nat.le_refl _) (by omega)
  rw [Nat.zero_add, bytesFrom, List.take_length, List.drop_zero] at size
  rw [size, Option.bind_some]
  by_cases large : data.length < le16 data 0
  · rw [if_pos large, if_pos large]
    refine ⟨iff_of_true ⟨_, rfl, refused⟩ (Or.inl (Or.inr large)), fun _ parsed same => ?_⟩
    obtain rfl := Option.some.inj same
    rfl
  rw [if_neg large, if_neg large]
  have fits : le16 data 0 ≤ data.length := not_lt.mp large
  have whole : ¬Headless data := not_or.mpr ⟨short, large⟩
  have first : Follows data (le16 data 0) (readDescriptor memory · data) (parseDescriptorWith memory) memory.Holds :=
    ⟨fits, fun off iface result room => readDescriptor_eq memory fits room iface result,
      fun desc iface accepted => (parseDescriptorWith_fst memory iface).trans (parseDescriptor_accepted accepted iface)⟩
  have second : Follows data (le16 data 0) (readDescriptorAgain again nread · data) (parseDescriptorAgain nread)
      fun iface desc => descType desc = typeCport → again.HoldsCport iface desc :=
    ⟨fits, fun off iface result room => readDescriptorAgain_eq again fits room nread iface result,
      fun desc iface accepted => parseDescriptorAgain_accepted accepted nread iface⟩
  have plain (given : ∀ left, memory.bundle left = true) : parseDescriptorWith memory = parseDescriptor := by
    funext iface desc
    exact if_neg fun both => Bool.noConfusion ((given _).symm.trans both.2)
  have enough : le16 data 0 - 4 < data.length + 1 := by omega
  unfold Checked
  rw [or_iff_right whole]
  by_cases faulty : Faulty (bytesFrom data (le16 data 0) 4)
  · obtain ⟨after, before, last, read, parsed, accepted, error⟩ := first.stops (fun desc iface refused =>
      (parseDescriptorWith_fst memory iface).trans_le (parseDescriptor_refused refused iface)) enough iface faulty
    rcases some_or_none read with ⟨supplied, read⟩ | ⟨missing, read⟩
    · rw [read, Option.bind_some]
      dsimp only
      rw [if_pos (by decide : - EINVAL ≠ 0)]
      have right : Right data ⟨- EINVAL, after, before ++ [last], []⟩ :=
        ⟨nofun, nofun, fun _ => ⟨rfl, Or.inr ⟨before, last, rfl, accepted, error⟩⟩⟩
      refine ⟨iff_of_true ⟨_, rfl, right⟩ ⟨⟨supplied, fun other => absurd faulty other⟩, Or.inl faulty⟩, ?_⟩
      intro given result same
      obtain rfl := Option.some.inj same
      change apParseLoop _ ((data.take (le16 data 0)).drop 4) iface = _ at parsed
      rw [plain given] at parsed
      rw [parsed]
      exact if_pos (by decide : - EINVAL ≠ 0)
    · rw [read, Option.bind_none]
      refine ⟨iff_of_false ?_ fun checked => missing checked.1.first, fun _ _ => nofun⟩
      rintro ⟨_, none, -⟩
      cases none
  · obtain ⟨middle, visits, read, parsed, covers⟩ := first.accepts_all enough iface faulty
    obtain ⟨after, visits', read', parsed', covers'⟩ := second.accepts_all enough middle faulty
    rcases some_or_none read with ⟨supplied, read⟩ | ⟨missing, read⟩
    · rw [read, Option.bind_some]
      dsimp only
      rw [if_neg (not_not.mpr rfl)]
      rcases some_or_none read' with ⟨supplied', read'⟩ | ⟨missing, read'⟩
      · rw [read', Option.map_some]
        have fed : Fed memory again nread iface (bytesFrom data (le16 data 0) 4) := by
          refine ⟨supplied, fun _ => ?_⟩
          rw [parsed]
          exact supplied'
        rw [and_iff_right fed, or_iff_right faulty]
        refine ⟨⟨?_, fun covered => ?_⟩, ?_⟩
        · rintro ⟨_, same, right⟩
          obtain rfl := Option.some.inj same
          exact covers.mp ⟨(right.tiles rfl).1, (right.sized rfl).1⟩
        · obtain ⟨tiles, sized⟩ := covers.mpr covered
          obtain ⟨tiles', sized'⟩ := covers'.mpr covered
          exact ⟨_, rfl, fun _ => ⟨tiles, tiles'⟩, fun _ => ⟨sized, sized'⟩, fun error => absurd rfl error⟩
        · intro given result same
          obtain rfl := Option.some.inj same
          change apParseLoop _ ((data.take (le16 data 0)).drop 4) iface = _ at parsed
          change apParseLoop _ ((data.take (le16 data 0)).drop 4) middle = _ at parsed'
          rw [plain given] at parsed
          rw [parsed]
          exact (if_neg (not_not.mpr rfl)).trans parsed'
      · rw [read', Option.map_none]
        refine ⟨iff_of_false ?_ fun checked => missing ?_, fun _ _ => nofun⟩
        · rintro ⟨_, none, -⟩
          cases none
        · have again := checked.1.second faulty
          rw [parsed] at again
          exact again
    · rw [read, Option.bind_none]
      refine ⟨iff_of_false ?_ fun checked => missing checked.1.first, fun _ _ => nofun⟩
      rintro ⟨_, none, -⟩
      cases none

/-- Every allocation succeeds. -/
def plenty : Memory := ⟨fun _ => true, fun _ => true, fun _ => true⟩

/-- An interface descriptor that declares five bytes is accepted, and three bytes are left behind it. A cport without memory
is written. -/
theorem ap_manifest_parse_accepts_short :
    (∃ parsed, apManifestParseReads plenty plenty 0 .create [12, 0, 0, 1, 5, 0, 1, 0, 0, 0, 0, 0] = some parsed ∧
      parsed.retval = 0 ∧ ¬Right [12, 0, 0, 1, 5, 0, 1, 0, 0, 0, 0, 0] parsed) ∧
    apManifestParseReads { plenty with cport := fun _ => false } plenty 0 .create
      [20, 0, 0, 1, 8, 0, 3, 0, 1, 5, 0, 0, 8, 0, 4, 0, 3, 0, 1, 2] = none := by
  refine ⟨⟨⟨0, .create, [⟨4, 5⟩], [⟨4, 5⟩]⟩, rfl, rfl, fun right => ?_⟩, rfl⟩
  obtain ⟨size, known, le⟩ := (right.sized rfl).1 _ List.mem_cons_self
  obtain rfl : 8 = size := Option.some.inj known
  exact absurd le (by decide)

end Phabos.Manifest
