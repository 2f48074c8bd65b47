import Phabos.Construction.Drivers.Core
import Phabos.Proof.Hashtable.FiniteMap

namespace Phabos.DeviceNumbers
open Library Function List
open Option (bind_some getD_none getD_some map_some)

/-- A table holds the values of a list under their positions. -/
structure Kept (table : Hashtable (BitVec 32) ℕ) (items : List ℕ) : Prop where
  refined : table.Refines fun key => items[key.toNat]?
  clean : table.NoTombstone
  live : 0 ∉ items

/-- A table grows when a value is added under a new key. -/
def Grows (table : Hashtable (BitVec 32) ℕ) : Prop := table.size / 2 ≤ table.count + 1

section Table
variable {table : Hashtable (BitVec 32) ℕ} {items : List ℕ} {i : ℕ}

theorem Kept.create : Kept (.create uintKeys) [] where
  refined := by
    simp only [List.getElem?_nil]
    exact Hashtable.refines_create uintKeys
  clean _ := rfl
  live := not_mem_nil

theorem Kept.hasFresh (kept : Kept table items) : table.HasFresh := by
  have load := kept.refined.load
  exact kept.refined.wellFormed.hasFresh_of_noTombstone kept.clean (by omega)

theorem Kept.get (kept : Kept table items) (small : i < 2 ^ 32) :
    table.get (BitVec.ofNat 32 i) = some (items[i]?.getD 0) := by
  have found := kept.refined.get_returns kept.hasFresh (BitVec.ofNat 32 i)
  rwa [BitVec.toNat_ofNat, Nat.mod_eq_of_lt small] at found

theorem Kept.get_item {item : ℕ} (kept : Kept table items) (small : i < 2 ^ 32) (there : items[i]? = some item) :
    table.get (BitVec.ofNat 32 i) = some item ∧ item ≠ 0 := by
  refine ⟨by rw [kept.get small, there, getD_some], fun null => kept.live ?_⟩
  exact null ▸ mem_of_getElem? there

theorem Kept.get_none (kept : Kept table items) (small : i < 2 ^ 32) (beyond : items.length ≤ i) :
    table.get (BitVec.ofNat 32 i) = some 0 := by
  rw [kept.get small, List.getElem?_eq_none beyond, getD_none]

theorem Kept.get_iff {item : ℕ} (kept : Kept table items) (small : i < 2 ^ 32) (live : item ≠ 0) :
    table.get (BitVec.ofNat 32 i) = some item ↔ items[i]? = some item := by
  rw [kept.get small, Option.some.injEq]
  cases items[i]? with
  | none => simp [live.symm]
  | some other => simp

theorem Kept.get_zero_iff (kept : Kept table items) (small : i < 2 ^ 32) :
    table.get (BitVec.ofNat 32 i) = some 0 ↔ items.length ≤ i := by
  refine ⟨fun null => ?_, kept.get_none small⟩
  by_contra inside
  obtain ⟨found, live⟩ := kept.get_item small (List.getElem?_eq_getElem (Nat.lt_of_not_le inside))
  rw [found] at null
  exact live (Option.some.inj null)

theorem Kept.hashtableAdd (kept : Kept table items) (small : items.length < 2 ^ 32) (memory : Bool) {value : ℕ}
    (positive : value ≠ 0) :
    (Grows table ∧ memory = false ∧ hashtableAdd memory table (BitVec.ofNat 32 items.length) value = none) ∨
      (Grows table → memory = true) ∧
        ∃ next, hashtableAdd memory table (BitVec.ofNat 32 items.length) value = some next ∧
          Kept next (items ++ [value]) := by
  have key : (BitVec.ofNat 32 items.length).toNat = items.length := by
    rw [BitVec.toNat_ofNat, Nat.mod_eq_of_lt small]
  obtain ⟨node, found⟩ := kept.hasFresh.findSlot_returns (BitVec.ofNat 32 items.length)
  obtain ⟨next, added, clean, refined⟩ := kept.refined.add_returns kept.clean (BitVec.ofNat 32 items.length) value
  have count : (table.store node (BitVec.ofNat 32 items.length) value).count = table.count + 1 := by
    refine Hashtable.store_count_of_unused ?_ _ value
    rcases kept.refined.wellFormed.findSlot_placeable found with stored | ⟨-, unused, -⟩
    · have mapped := (kept.refined.holds_iff _ _).mp ⟨node, stored, rfl⟩
      rw [key, List.getElem?_eq_none (Nat.le_refl _)] at mapped
      cases mapped
    · exact unused
  have after : Kept next (items ++ [value]) := by
    refine ⟨?_, clean, fun null => ?_⟩
    · have same : (fun key : BitVec 32 => (items ++ [value])[key.toNat]?) =
          update (fun key : BitVec 32 => items[key.toNat]?) (BitVec.ofNat 32 items.length) (some value) := by
        funext other
        by_cases equal : other = BitVec.ofNat 32 items.length
        · rw [equal, update_self, key, List.getElem?_concat_length]
        · rw [update_of_ne equal]
          have differs : other.toNat ≠ items.length := fun same => equal (BitVec.eq_of_toNat_eq (same.trans key.symm))
          rcases Nat.lt_or_gt_of_ne differs with below | above
          · exact List.getElem?_append_left below
          · rw [List.getElem?_eq_none (by simp; omega), List.getElem?_eq_none (by omega)]
      rw [same]
      exact refined
    · rcases mem_append.mp null with old | new
      · exact kept.live old
      · exact positive (mem_singleton.mp new).symm
  unfold DeviceNumbers.hashtableAdd
  rw [found]
  simp only [bind_some, count, added]
  by_cases fails : Grows table ∧ memory = false
  · exact .inl ⟨fails.1, fails.2, if_pos fails⟩
  · exact .inr ⟨fun grows => by_contra fun none => fails ⟨grows, Bool.not_eq_true _ ▸ none⟩, next, if_neg fails, after⟩

theorem Kept.allocMinor (kept : Kept table items) (room : items.length ≤ bound) (memory : Memory) {device : ℕ}
    (positive : device ≠ 0) {left j : ℕ} (rest : j + left = bound) (behind : j ≤ items.length) :
    items.length = bound ∧ allocMinor memory table device left j = some none ∨
      items.length < bound ∧
        ((Grows table ∧ memory.growDevices = false ∧ allocMinor memory table device left j = none) ∨
          (Grows table → memory.growDevices = true) ∧
            ∃ next, allocMinor memory table device left j = some (some (next, items.length)) ∧
              Kept next (items ++ [device])) := by
  have small : bound < 2 ^ 32 := by decide
  induction left generalizing j with
  | zero => exact .inl ⟨by omega, rfl⟩
  | succ left ih =>
    unfold DeviceNumbers.allocMinor Hashtable.has
    rcases Nat.lt_or_eq_of_le behind with before | rfl
    · obtain ⟨found, live⟩ := kept.get_item (by omega) (List.getElem?_eq_getElem before)
      rw [found]
      simp only [map_some, bind_some]
      rw [if_pos (by simpa using live)]
      exact ih (by omega) before
    · rw [kept.get_none (by omega) (Nat.le_refl _)]
      simp only [map_some, bind_some]
      rw [if_neg (by simp)]
      refine .inr ⟨by omega, ?_⟩
      rcases kept.hashtableAdd (by omega) memory.growDevices positive with ⟨grows, none, fails⟩ | ⟨memory, next, adds, after⟩
      · exact .inl ⟨grows, none, by rw [fails]; rfl⟩
      · exact .inr ⟨memory, next, by rw [adds]; rfl, after⟩

end Table

/-- The entries of the drivers under their major numbers and the devices of each under their minor numbers -/
structure Core.Holds (c : Core) (entries : List ℕ) (devices : ℕ → List ℕ) : Prop where
  drivers : Kept c.driverTable entries
  fresh : ∀ dev ∈ entries, dev < c.next
  positive : 0 < c.next
  distinct : (entries.map fun dev => (c.devnum dev).driver).Nodup
  kept : ∀ dev ∈ entries, Kept (c.devnum dev).deviceTable (devices dev)
  room : entries.length ≤ bound ∧ ∀ dev ∈ entries, (devices dev).length ≤ bound
  given : ∀ number driver device, (number, driver, device) ∈ c.given ↔
    ∃ i dev j, entries[i]? = some dev ∧ (devices dev)[j]? = some device ∧ (c.devnum dev).driver = driver ∧
      number = makedev i j
  single : (c.given.map Prod.fst).Nodup

/-- The lock is released, each number that was given is different from the others and leads to its device, the numbers
of a driver have one major number which no other driver has, and other numbers lead to no device. -/
structure Right (c : Core) : Prop where
  released : c.lockDepth = 0
  returns : ∀ number, (devnumGetDevice c number).1.stopped = c.stopped
  single : (c.given.map Prod.fst).Nodup
  found : ∀ number driver device, (number, driver, device) ∈ c.given → (devnumGetDevice c number).2 = device
  majors : ∀ number driver device number' driver' device', (number, driver, device) ∈ c.given →
    (number', driver', device') ∈ c.given → (major number = major number' ↔ driver = driver')
  missing : ∀ number, number ∉ c.given.map Prod.fst → (devnumGetDevice c number).2 = 0

/-- A lookup is for a major number with a driver. An allocation has the memory for the tables that it creates or has to
enlarge. -/
def Served (c : Core) : Action → Prop
  | .getDevice dev => c.driverTable.get (BitVec.ofNat 32 (major dev)) ≠ some 0
  | .alloc driver _ memory =>
    (∀ i < bound, ∀ dev, c.driverTable.get (BitVec.ofNat 32 i) = some dev → dev ≠ 0 → (c.devnum dev).driver = driver →
      (∃ j < bound, (c.devnum dev).deviceTable.get (BitVec.ofNat 32 j) = some 0) →
        Grows (c.devnum dev).deviceTable → memory.growDevices = true) ∧
    ((∀ i < bound, ∀ dev, c.driverTable.get (BitVec.ofNat 32 i) = some dev → dev ≠ 0 → (c.devnum dev).driver ≠ driver) →
      (∃ i < bound, c.driverTable.get (BitVec.ofNat 32 i) = some 0) → memory.entry = true →
        memory.table = true ∧ (Grows c.driverTable → memory.growDrivers = true))

section Numbers

theorem major_makedev {i : ℕ} (small : i < bound) (j : ℕ) : major (makedev i j) = i := by
  have bounds : bound = 256 := rfl
  unfold major makedev
  rw [BitVec.toNat_ofNat]
  omega

theorem minor_makedev {j : ℕ} (i : ℕ) (small : j < bound) : minor (makedev i j) = j := by
  have bounds : bound = 256 := rfl
  unfold minor makedev
  rw [BitVec.toNat_ofNat]
  omega

theorem major_lt (dev : DevT) : major dev < bound := Nat.mod_lt _ (by decide)

theorem minor_lt (dev : DevT) : minor dev < bound := by
  have small := dev.isLt
  unfold minor
  change dev.toNat / 2 ^ 8 < 256
  omega

theorem makedev_major_minor (dev : DevT) : makedev (major dev) (minor dev) = dev := by
  have small := dev.isLt
  apply BitVec.eq_of_toNat_eq
  unfold makedev major minor
  rw [BitVec.toNat_ofNat]
  omega

end Numbers

section Core
variable {c : Core} {entries : List ℕ} {devices : ℕ → List ℕ}

theorem Core.Holds.lt_bound {i dev : ℕ} (holds : c.Holds entries devices) (there : entries[i]? = some dev) :
    i < bound ∧ dev ∈ entries := by
  obtain ⟨inside, same⟩ := List.getElem?_eq_some_iff.mp there
  exact ⟨inside.trans_le holds.room.1, mem_of_getElem? there⟩

theorem Core.Holds.device_lt {dev j device : ℕ} (holds : c.Holds entries devices) (entry : dev ∈ entries)
    (there : (devices dev)[j]? = some device) : j < bound := by
  obtain ⟨inside, same⟩ := List.getElem?_eq_some_iff.mp there
  exact inside.trans_le (holds.room.2 dev entry)

theorem Core.Holds.getDevice (holds : c.Holds entries devices) (number : DevT) :
    (entries[major number]? = none ∧ c.driverTable.get (BitVec.ofNat 32 (major number)) = some 0 ∧
        devnumGetDevice c number = (c.lock, 0)) ∨
      ∃ dev, entries[major number]? = some dev ∧ c.driverTable.get (BitVec.ofNat 32 (major number)) = some dev ∧ dev ≠ 0 ∧
        devnumGetDevice c number = (c, (devices dev)[minor number]?.getD 0) := by
  have small : bound < 2 ^ 32 := by decide
  have low := (major_lt number).trans small
  cases entry : entries[major number]? with
  | none =>
    have null : c.driverTable.get (BitVec.ofNat 32 (major number)) = some 0 := by
      rw [holds.drivers.get low, entry, getD_none]
    refine .inl ⟨rfl, null, ?_⟩
    unfold devnumGetDevice
    rw [null]
    rfl
  | some dev =>
    obtain ⟨found, live⟩ := holds.drivers.get_item low entry
    have listed := (holds.lt_bound entry).2
    refine .inr ⟨dev, rfl, found, live, ?_⟩
    unfold devnumGetDevice
    rw [found]
    dsimp only
    rw [if_neg live, (holds.kept dev listed).get ((minor_lt number).trans small)]
    rfl

/-- A table that holds its entries returns them, and the lock is free. -/
theorem Core.Holds.right (holds : c.Holds entries devices) (released : c.lockDepth = 0) : Right c where
  released := released
  returns number := by
    rcases holds.getDevice number with ⟨-, -, result⟩ | ⟨dev, -, -, -, result⟩
    · rw [result]
      rfl
    · rw [result]
  single := holds.single
  found number driver device there := by
    obtain ⟨i, dev, j, entry, listed, -, rfl⟩ := (holds.given number driver device).mp there
    obtain ⟨low, inside⟩ := holds.lt_bound entry
    have part := major_makedev low j
    rcases holds.getDevice (makedev i j) with ⟨none, -, -⟩ | ⟨other, entry', -, -, result⟩
    · rw [part, entry] at none
      cases none
    · rw [part, entry] at entry'
      obtain rfl := Option.some.inj entry'
      rw [result, minor_makedev i (holds.device_lt inside listed), listed, getD_some]
  majors number driver device number' driver' device' one two := by
    obtain ⟨i, dev, j, entry, -, rfl, rfl⟩ := (holds.given number driver device).mp one
    obtain ⟨i', dev', j', entry', -, rfl, rfl⟩ := (holds.given number' driver' device').mp two
    rw [major_makedev (holds.lt_bound entry).1, major_makedev (holds.lt_bound entry').1]
    constructor
    · rintro rfl
      rw [entry] at entry'
      rw [Option.some.inj entry']
    · intro same
      refine (List.getElem?_inj (l := entries.map fun dev => (c.devnum dev).driver) ?_ holds.distinct).mp ?_
      · rw [length_map]
        exact (List.getElem?_eq_some_iff.mp entry).1
      · rw [List.getElem?_map, List.getElem?_map, entry, entry', map_some, map_some, same]
  missing number absent := by
    rcases holds.getDevice number with ⟨-, -, result⟩ | ⟨dev, entry, -, -, result⟩
    · rw [result]
    · rw [result]
      cases listed : (devices dev)[minor number]? with
      | none => rfl
      | some device =>
        refine absurd (mem_map.mpr ⟨(number, (c.devnum dev).driver, device), ?_, rfl⟩) absent
        exact (holds.given _ _ _).mpr ⟨major number, dev, minor number, entry, listed, rfl, (makedev_major_minor number).symm⟩

theorem Core.Holds.depth (holds : c.Holds entries devices) (lockDepth : ℕ) :
    ({ c with lockDepth := lockDepth } : Core).Holds entries devices :=
  { holds with }

theorem Core.Holds.added {i dev device : ℕ} {table : Hashtable (BitVec 32) ℕ} (holds : c.Holds entries devices)
    (entry : entries[i]? = some dev) (room : (devices dev).length < bound) (kept : Kept table (devices dev ++ [device])) :
    ({ c with
      devnum := update c.devnum dev ⟨(c.devnum dev).driver, table⟩
      given := c.given ++ [(makedev i (devices dev).length, (c.devnum dev).driver, device)] } : Core).Holds entries
        (update devices dev (devices dev ++ [device])) := by
  have driver (other : ℕ) :
      (update c.devnum dev ⟨(c.devnum dev).driver, table⟩ other).driver = (c.devnum other).driver := by
    by_cases same : other = dev
    · rw [same, update_self]
    · rw [update_of_ne same]
  have given (number driver' device' : _) : (number, driver', device') ∈
      c.given ++ [(makedev i (devices dev).length, (c.devnum dev).driver, device)] ↔
      ∃ i' dev' j, entries[i']? = some dev' ∧
        (update devices dev (devices dev ++ [device]) dev')[j]? = some device' ∧
        (c.devnum dev').driver = driver' ∧ number = makedev i' j := by
    rw [mem_append, holds.given, mem_singleton]
    constructor
    · rintro (⟨i', dev', j, entry', listed, same, part⟩ | new)
      · refine ⟨i', dev', j, entry', ?_, same, part⟩
        by_cases equal : dev' = dev
        · rw [equal] at listed ⊢
          rw [update_self, List.getElem?_append_left (List.getElem?_eq_some_iff.mp listed).1]
          exact listed
        · rwa [update_of_ne equal]
      · cases new
        refine ⟨i, dev, (devices dev).length, entry, ?_, rfl, rfl⟩
        rw [update_self, List.getElem?_concat_length]
    · rintro ⟨i', dev', j, entry', listed, same, part⟩
      by_cases equal : dev' = dev
      · subst equal
        rw [update_self] at listed
        rcases Nat.lt_or_ge j (devices dev').length with before | behind
        · rw [List.getElem?_append_left before] at listed
          exact .inl ⟨i', dev', j, entry', listed, same, part⟩
        · have last := (List.getElem?_eq_some_iff.mp listed).1
          rw [length_append, length_singleton] at last
          obtain rfl : j = (devices dev').length := by omega
          rw [List.getElem?_concat_length] at listed
          cases listed
          have one : i' = i := by
            refine (List.getElem?_inj (l := entries.map fun dev => (c.devnum dev).driver) ?_ holds.distinct).mp ?_
            · rw [length_map]
              exact (List.getElem?_eq_some_iff.mp entry').1
            · rw [List.getElem?_map, List.getElem?_map, entry, entry']
          rw [part, one, same]
          exact .inr rfl
      · rw [update_of_ne equal] at listed
        exact .inl ⟨i', dev', j, entry', listed, same, part⟩
  refine ⟨holds.drivers, holds.fresh, holds.positive, ?_, fun other there => ?_, ⟨holds.room.1, fun other there => ?_⟩,
    fun number driver' device' => ?_, ?_⟩
  · simp only [driver]
    exact holds.distinct
  · dsimp only
    by_cases same : other = dev
    · rw [same, update_self, update_self]
      exact kept
    · rw [update_of_ne same, update_of_ne same]
      exact holds.kept other there
  · by_cases same : other = dev
    · rw [same, update_self, length_append, length_singleton]
      exact room
    · rw [update_of_ne same]
      exact holds.room.2 other there
  · simp only [driver]
    exact given number driver' device'
  · rw [map_append, map_singleton, ← concat_eq_append]
    refine holds.single.concat fun there => ?_
    obtain ⟨⟨number, driver', device'⟩, old, same⟩ := mem_map.mp there
    obtain ⟨i', dev', j, entry', listed, -, part⟩ := (holds.given number driver' device').mp old
    obtain ⟨low, inside⟩ := holds.lt_bound entry'
    have equal : makedev i' j = makedev i (devices dev).length := part.symm.trans same
    have first := congrArg major equal
    rw [major_makedev low, major_makedev (holds.lt_bound entry).1] at first
    have second := congrArg minor equal
    rw [minor_makedev _ (holds.device_lt inside listed), minor_makedev _ room] at second
    rw [first, entry] at entry'
    obtain rfl := Option.some.inj entry'
    rw [second, List.getElem?_eq_none (Nat.le_refl _)] at listed
    cases listed

theorem Core.Holds.created {driver : ℕ} {driverTable : Hashtable (BitVec 32) ℕ} (holds : c.Holds entries devices)
    (room : entries.length < bound) (absent : ∀ dev ∈ entries, (c.devnum dev).driver ≠ driver)
    (kept : Kept driverTable (entries ++ [c.next])) :
    ({ c with
      driverTable := driverTable
      devnum := update c.devnum c.next ⟨driver, .create uintKeys⟩
      next := c.next + 1 } : Core).Holds (entries ++ [c.next]) (update devices c.next []) := by
  have old (dev : ℕ) (there : dev ∈ entries) : dev ≠ c.next := Nat.ne_of_lt (holds.fresh dev there)
  refine ⟨kept, fun dev there => ?_, Nat.succ_pos _, ?_, fun dev there => ?_, ⟨?_, fun dev there => ?_⟩,
    fun number driver' device' => ?_, holds.single⟩
  · rcases mem_append.mp there with before | new
    · exact Nat.lt_succ_of_lt (holds.fresh dev before)
    · exact mem_singleton.mp new ▸ Nat.lt_succ_self c.next
  · dsimp only
    rw [map_append, map_singleton, update_self, ← concat_eq_append]
    have same : (entries.map fun dev => (update c.devnum c.next ⟨driver, .create uintKeys⟩ dev).driver) =
        entries.map fun dev => (c.devnum dev).driver := by
      refine map_congr_left fun dev there => ?_
      rw [update_of_ne (old dev there)]
    rw [same]
    refine holds.distinct.concat fun there => ?_
    obtain ⟨dev, before, same⟩ := mem_map.mp there
    exact absent dev before same
  · rcases mem_append.mp there with before | new
    · dsimp only
      rw [update_of_ne (old dev before), update_of_ne (old dev before)]
      exact holds.kept dev before
    · dsimp only
      rw [mem_singleton.mp new, update_self, update_self]
      exact .create
  · rw [length_append, length_singleton]
    exact room
  · rcases mem_append.mp there with before | new
    · rw [update_of_ne (old dev before)]
      exact holds.room.2 dev before
    · rw [mem_singleton.mp new, update_self]
      exact Nat.zero_le _
  · refine (holds.given number driver' device').trans ⟨?_, ?_⟩
    · rintro ⟨i, dev, j, entry, listed, same, part⟩
      have inside := (holds.lt_bound entry).2
      refine ⟨i, dev, j, ?_, ?_, ?_, part⟩
      · rw [List.getElem?_append_left (List.getElem?_eq_some_iff.mp entry).1]
        exact entry
      · rwa [update_of_ne (old dev inside)]
      · dsimp only
        rwa [update_of_ne (old dev inside)]
    · rintro ⟨i, dev, j, entry, listed, same, part⟩
      rcases Nat.lt_or_ge i entries.length with before | behind
      · rw [List.getElem?_append_left before] at entry
        have differs := old dev (mem_of_getElem? entry)
        rw [update_of_ne differs] at listed
        dsimp only at same
        rw [update_of_ne differs] at same
        exact ⟨i, dev, j, entry, listed, same, part⟩
      · have new : dev ∈ [c.next] := by
          rw [List.getElem?_append_right behind] at entry
          exact mem_of_getElem? entry
        rw [mem_singleton.mp new, update_self, List.getElem?_nil] at listed
        cases listed

/-- What a loop over the major numbers finds: the entry of the driver, no room, or room for a new entry. -/
inductive Search (c : Core) (entries : List ℕ) (driver device : ℕ) (memory : Memory) :
    Option (Core × Int × Option DevT) → Prop
  | entry (i dev : ℕ) (there : entries[i]? = some dev) (same : (c.devnum dev).driver = driver) :
      Search c entries driver device memory (allocIn c device memory i dev)
  | full (absent : ∀ dev ∈ entries, (c.devnum dev).driver ≠ driver)
      (fails : entries.length = bound ∨ entries.length < bound ∧ memory.entry = false) :
      Search c entries driver device memory (some (c, - ENOMEM, none))
  | stops (absent : ∀ dev ∈ entries, (c.devnum dev).driver ≠ driver) (room : entries.length < bound)
      (allocated : memory.entry = true)
      (fails : Grows c.driverTable ∧ memory.growDrivers = false ∨ memory.table = false) :
      Search c entries driver device memory none
  | creates (absent : ∀ dev ∈ entries, (c.devnum dev).driver ≠ driver) (room : entries.length < bound)
      (table : memory.table = true) (grows : Grows c.driverTable → memory.growDrivers = true)
      (driverTable : Hashtable (BitVec 32) ℕ) (kept : Kept driverTable (entries ++ [c.next])) :
      Search c entries driver device memory
        (allocIn { c with
          driverTable := driverTable
          devnum := Function.update c.devnum c.next ⟨driver, .create uintKeys⟩
          next := c.next + 1 } device memory entries.length c.next)

theorem Core.Holds.allocMajor (holds : c.Holds entries devices) (driver device : ℕ) (memory : Memory) {left i : ℕ}
    (rest : i + left = bound) (behind : i ≤ entries.length)
    (others : ∀ dev ∈ entries.take i, (c.devnum dev).driver ≠ driver) :
    Search c entries driver device memory (allocMajor c driver device memory left i) := by
  have small : bound < 2 ^ 32 := by decide
  induction left generalizing i with
  | zero =>
    have room := holds.room.1
    obtain rfl : i = entries.length := by omega
    rw [take_length] at others
    exact .full others (.inl (by omega))
  | succ left ih =>
    unfold DeviceNumbers.allocMajor
    rcases Nat.lt_or_eq_of_le behind with before | rfl
    · have entry := List.getElem?_eq_getElem before
      obtain ⟨found, live⟩ := holds.drivers.get_item (by omega) entry
      rw [found, bind_some]
      by_cases same : (c.devnum entries[i]).driver = driver
      · rw [if_neg fun both => both.2 same, if_pos live]
        exact .entry i _ entry same
      · rw [if_pos ⟨live, same⟩]
        refine ih (by omega) before fun dev there => ?_
        rw [take_add_one, entry, Option.toList_some] at there
        rcases mem_append.mp there with earlier | here
        · exact others dev earlier
        · exact mem_singleton.mp here ▸ same
    · rw [take_length] at others
      have room : entries.length < bound := by omega
      rw [holds.drivers.get_none (room.trans small) (Nat.le_refl _), bind_some, if_neg fun both => both.1 rfl,
        if_neg (not_not.mpr rfl)]
      cases allocated : memory.entry with
      | false => exact .full others (.inr ⟨room, allocated⟩)
      | true =>
        rw [if_neg (by simp)]
        rcases holds.drivers.hashtableAdd (room.trans small) memory.growDrivers (Nat.ne_of_gt holds.positive) with
          ⟨grows, none, fails⟩ | ⟨memory', driverTable, adds, kept⟩
        · rw [fails, Option.bind_none]
          exact .stops others room allocated (.inl ⟨grows, none⟩)
        · rw [adds, bind_some]
          cases table : memory.table with
          | false =>
            rw [if_pos (by simp)]
            exact .stops others room allocated (.inr table)
          | true =>
            rw [if_neg (by simp)]
            exact .creates others room table memory' driverTable kept

theorem Core.Holds.allocIn {device i dev : ℕ} (holds : c.Holds entries devices) (memory : Memory) (positive : device ≠ 0)
    (entry : entries[i]? = some dev) :
    (devices dev).length = bound ∧ allocIn c device memory i dev = some (c, - ENOMEM, none) ∨
      (devices dev).length < bound ∧
        ((Grows (c.devnum dev).deviceTable ∧ memory.growDevices = false ∧ allocIn c device memory i dev = none) ∨
          (Grows (c.devnum dev).deviceTable → memory.growDevices = true) ∧
            ∃ table, Kept table (devices dev ++ [device]) ∧ allocIn c device memory i dev =
              some ({ c with devnum := update c.devnum dev ⟨(c.devnum dev).driver, table⟩ }, 0,
                some (makedev i (devices dev).length))) := by
  have inside := (holds.lt_bound entry).2
  unfold DeviceNumbers.allocIn
  rcases (holds.kept dev inside).allocMinor (holds.room.2 dev inside) memory positive (Nat.zero_add bound)
    (Nat.zero_le _) with ⟨full, ran⟩ | ⟨room, ⟨grows, none, ran⟩ | ⟨grows, table, ran, kept⟩⟩
  · exact .inl ⟨full, by rw [ran]; rfl⟩
  · exact .inr ⟨room, .inl ⟨grows, none, by rw [ran]; rfl⟩⟩
  · exact .inr ⟨room, .inr ⟨grows, table, kept, by rw [ran]; rfl⟩⟩

/-- The core after a call with a number to give -/
def Core.give (c : Core) (driver device : ℕ) (number : Option DevT) : Core :=
  { c with given := c.given ++ (number.map fun number => (number, driver, device)).toList }

theorem Core.Holds.alloc (holds : c.Holds entries devices) (driver : ℕ) {device : ℕ} (memory : Memory)
    (positive : device ≠ 0) :
    (¬ Served c (.alloc driver device memory) ∧ DeviceNumbers.allocMajor c driver device memory bound 0 = none) ∨
      Served c (.alloc driver device memory) ∧
        ∃ next retval number, DeviceNumbers.allocMajor c driver device memory bound 0 = some (next, retval, number) ∧
          next.lockDepth = c.lockDepth ∧ next.stopped = c.stopped ∧ ∃ entries devices,
            (next.give driver device number).Holds entries devices := by
  have small : bound < 2 ^ 32 := by decide
  have search := holds.allocMajor driver device memory (Nat.zero_add bound) (Nat.zero_le _) (by simp)
  have same (c : Core) (driver device : ℕ) : c.give driver device none = c := by
    unfold Core.give
    rw [Option.map_none, Option.toList_none, append_nil]
  generalize DeviceNumbers.allocMajor c driver device memory bound 0 = found at search ⊢
  cases search with
  | entry i dev there equal =>
    obtain ⟨low, inside⟩ := holds.lt_bound there
    obtain ⟨found, live⟩ := holds.drivers.get_item (low.trans small) there
    -- the driver has only this entry
    have only (j) (low' : j < bound) (dev') (gets : c.driverTable.get (BitVec.ofNat 32 j) = some dev') (live' : dev' ≠ 0)
        (own : (c.devnum dev').driver = driver) : dev' = dev := by
      have there' := (holds.drivers.get_iff (low'.trans small) live').mp gets
      exact inj_on_of_nodup_map holds.distinct (mem_of_getElem? there') inside (own.trans equal.symm)
    have empties : (∃ j < bound, (c.devnum dev).deviceTable.get (BitVec.ofNat 32 j) = some 0) ↔
        (devices dev).length < bound := by
      constructor
      · rintro ⟨j, low, null⟩
        exact Nat.lt_of_le_of_lt (((holds.kept dev inside).get_zero_iff (low.trans small)).mp null) low
      · exact fun room => ⟨_, room, (holds.kept dev inside).get_none (room.trans small) (Nat.le_refl _)⟩
    have served : Served c (.alloc driver device memory) ↔
        ((devices dev).length < bound → Grows (c.devnum dev).deviceTable → memory.growDevices = true) := by
      constructor
      · intro served room
        exact served.1 i low dev found live equal (empties.mpr room)
      · intro goes
        refine ⟨fun j low' dev' gets live' own room grows => ?_, fun absent => ?_⟩
        · obtain rfl := only j low' dev' gets live' own
          exact goes (empties.mp room) grows
        · exact absurd equal (absent i low dev found live)
    rcases holds.allocIn memory positive there with ⟨full, ran⟩ | ⟨room, ⟨grows, none, ran⟩ | ⟨grows, table, kept, ran⟩⟩
    · refine .inr ⟨served.mpr fun room => absurd full (Nat.ne_of_lt room), c, _, none, ran, rfl, rfl, entries, devices, ?_⟩
      rwa [same]
    · refine .inl ⟨fun goes => ?_, ran⟩
      rw [served.mp goes room grows] at none
      cases none
    · subst equal
      exact .inr ⟨served.mpr fun _ => grows, _, _, _, ran, rfl, rfl, entries, _, holds.added there room kept⟩
  | full absent fails =>
    refine .inr ⟨⟨fun j low dev gets live own => ?_, fun _ ⟨j, low, null⟩ allocated => ?_⟩, c, _, none, rfl, rfl, rfl,
      entries, devices, ?_⟩
    · have there := (holds.drivers.get_iff (low.trans small) live).mp gets
      exact absurd own (absent dev (mem_of_getElem? there))
    · have short := (holds.drivers.get_zero_iff (low.trans small)).mp null
      rcases fails with full | ⟨-, none⟩
      · omega
      · rw [none] at allocated
        cases allocated
    · rwa [same]
  | stops absent room allocated fails =>
    refine .inl ⟨fun served => ?_, rfl⟩
    obtain ⟨table, grows⟩ := served.2 (fun j low dev gets live =>
        absent dev (mem_of_getElem? ((holds.drivers.get_iff (low.trans small) live).mp gets)))
      ⟨_, room, holds.drivers.get_none (room.trans small) (Nat.le_refl _)⟩ allocated
    rcases fails with ⟨grows', none⟩ | none
    · rw [grows grows'] at none
      cases none
    · rw [table] at none
      cases none
  | creates absent room table grows driverTable kept =>
    have created := holds.created room absent kept
    have there : (entries ++ [c.next])[entries.length]? = some c.next := List.getElem?_concat_length ..
    refine .inr ⟨⟨fun j low dev gets live own => ?_, fun _ _ _ => ⟨table, grows⟩⟩, ?_⟩
    · exact absurd own (absent dev (mem_of_getElem? ((holds.drivers.get_iff (low.trans small) live).mp gets)))
    · rcases created.allocIn memory positive there with ⟨full, -⟩ | ⟨room', ⟨grows', -, -⟩ | ⟨-, table, kept, ran⟩⟩
      · rw [update_self] at full
        cases full
      · unfold Grows at grows'
        simp only [update_self] at grows'
        exact absurd grows' (by decide)
      · have after := created.added there room' kept
        simp only [update_self] at ran after ⊢
        exact ⟨_, _, _, ran, rfl, rfl, _, _, after⟩

/-- The tables hold numbers until the core stops. -/
def Core.Sound (c : Core) : Prop := c.stopped = true ∨ ∃ entries devices, c.Holds entries devices

/-- The devices are not null. -/
def Given (_ : Core) : Action → Prop
  | .alloc _ device _ => device ≠ 0
  | .getDevice _ => True

/-- A step keeps the tables sound, and right exactly when it is served. -/
theorem Core.Sound.step {next : Core} {action : Action} (sound : c.Sound) (given : Given c action)
    (stepped : step c action = some next) : next.Sound ∧ (Right c → (Right next ↔ Served c action)) := by
  unfold DeviceNumbers.step at stepped
  split at stepped
  · cases stepped
  rename_i runs
  obtain ⟨entries, devices, holds⟩ := sound.resolve_left runs
  cases action with
  | alloc driver device memory =>
    rcases (holds.depth (c.lockDepth + 1)).alloc driver memory given with
      ⟨unserved, ran⟩ | ⟨served, after, retval, number, ran, depth, stopped, entries, devices, holds⟩
    · have ran : allocMajor c.lock driver device memory bound 0 = none := ran
      simp only [devnumAlloc, ran, Option.some.injEq] at stepped
      subst stepped
      refine ⟨.inl rfl, fun right => iff_of_false (fun after => ?_) unserved⟩
      have locked : c.lockDepth + 1 = 0 := after.released
      cases locked
    · have ran : allocMajor c.lock driver device memory bound 0 = some (after, retval, number) := ran
      simp only [devnumAlloc, ran, Option.some.injEq] at stepped
      subst stepped
      have kept := holds.depth (after.lockDepth - 1)
      refine ⟨.inr ⟨entries, devices, kept⟩, fun right => iff_of_true (kept.right ?_) served⟩
      dsimp only
      rw [depth]
      exact right.released
  | getDevice dev =>
    obtain rfl := Option.some.inj stepped
    rcases holds.getDevice dev with ⟨-, null, result⟩ | ⟨addr, -, found, live, result⟩
    · rw [result]
      refine ⟨.inr ⟨entries, devices, holds.depth _⟩, fun right => iff_of_false (fun after => ?_) (not_not.mpr null)⟩
      have locked : c.lockDepth + 1 = 0 := after.released
      cases locked
    · rw [result]
      refine ⟨.inr ⟨entries, devices, holds⟩, fun right => iff_of_true right fun null => live ?_⟩
      rw [found] at null
      exact Option.some.inj null

theorem holds_driverInit : driverInit.Holds [] fun _ => [] where
  drivers := .create
  fresh := nofun
  positive := Nat.one_pos
  distinct := nodup_nil
  kept := nofun
  room := ⟨Nat.zero_le _, nofun⟩
  given number driver device := by simp [driverInit]
  single := nodup_nil

end Core

/-- In every state of a run the numbers lead to their devices and the lock is released if and only if every lookup is
for a major number with a driver and every allocation has the memory for the tables it creates and enlarges. -/
theorem devnum_round_trip (actions : List Action) (c : Core) (given : Guarded step Given driverInit actions)
    (ran : run step driverInit actions = some c) :
    (∀ first, first <+: actions → ∀ middle, run step driverInit first = some middle → Right middle) ↔
      Guarded step Served driverInit actions :=
  reached_iff_guarded step Given Served Core.Sound Right (fun _ _ _ sound given stepped => sound.step given stepped)
    driverInit c actions (.inr ⟨[], _, holds_driverInit⟩) (holds_driverInit.right rfl) given ran

/-- A lookup for a major number with a driver, or an allocation with all its memory -/
def Provided (c : Core) : Action → Prop
  | .getDevice dev => c.driverTable.get (BitVec.ofNat 32 (major dev)) ≠ some 0
  | .alloc _ _ memory => memory = ⟨true, true, true, true⟩

instance (c : Core) (action : Action) : Decidable (Provided c action) :=
  match action with
  | .getDevice _ => inferInstanceAs (Decidable (_ ≠ _))
  | .alloc _ _ _ => inferInstanceAs (Decidable (_ = _))

theorem Provided.served {c : Core} {action : Action} (provided : Provided c action) : Served c action := by
  cases action with
  | getDevice dev => exact provided
  | alloc driver device memory =>
    obtain rfl : memory = ⟨true, true, true, true⟩ := provided
    exact ⟨fun _ _ _ _ _ _ _ _ => rfl, fun _ _ _ => ⟨rfl, fun _ => rfl⟩⟩

/-- Two drivers get numbers for three devices, and a number of the first one is looked up. -/
def twoDrivers : List Action :=
  [.alloc 100 1 ⟨true, true, true, true⟩, .alloc 200 2 ⟨true, true, true, true⟩, .alloc 100 3 ⟨true, true, true, true⟩,
    .getDevice (makedev 0 1)]

theorem devnum_round_trip_drivers :
    ∃ c, run step driverInit twoDrivers = some c ∧
      c.given = [(makedev 0 0, 100, 1), (makedev 1 0, 200, 2), (makedev 0 1, 100, 3)] ∧ Right c := by
  refine exists_final Core.given
    [(makedev 0 0, 100, 1), (makedev 1 0, 200, 2), (makedev 0 1, 100, 3)] (by decide +kernel) fun c ran given => ?_
  have served : Guarded step Served driverInit twoDrivers :=
    .mono (fun _ _ => Provided.served) (by decide +kernel)
  have nonnull : Guarded step Given driverInit twoDrivers := by
    refine .of_forall fun action there c => ?_
    simp only [twoDrivers, List.mem_cons, List.not_mem_nil, or_false] at there
    rcases there with rfl | rfl | rfl | rfl
    · exact Nat.one_ne_zero
    · exact Nat.succ_ne_zero 1
    · exact Nat.succ_ne_zero 2
    · trivial
  exact ⟨given, (devnum_round_trip twoDrivers c nonnull ran).mpr served twoDrivers List.prefix_rfl c ran⟩

/-- A lookup for a major number that no driver has leaves the lock locked. -/
theorem devnum_get_device_keeps_lock :
    ∃ c, run step driverInit [.getDevice (makedev 0 0)] = some c ∧ c.lockDepth = 1 ∧ ¬ Right c :=
  ⟨_, rfl, rfl, fun right => Nat.one_ne_zero right.released⟩

end Phabos.DeviceNumbers
