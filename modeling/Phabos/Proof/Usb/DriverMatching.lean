import Mathlib.Data.List.TakeWhile
import Phabos.Construction.Usb.DriverProbe

namespace Phabos.UsbHost
open List

/-- The entries of a driver, in front of the first one without a flag -/
def UsbDriver.entries (driver : UsbDriver) : List UsbDeviceId := driver.idTable.takeWhile fun id => id.matchFlags ≠ 0

/-- An entry matches a device in all the fields that its flags select. -/
def UsbDeviceId.Matches (id : UsbDeviceId) (device : UsbDevice) : Prop :=
  ∀ criterion : Criterion, id.matchFlags &&& criterion.flag ≠ 0 → criterion.ofDevice device = criterion.ofId id

def UsbDriver.Supports (driver : UsbDriver) (device : UsbDevice) : Prop := ∃ id ∈ driver.entries, id.Matches device

/-- A device without a driver is refused, and one driver gets a matching entry of its own table otherwise. -/
structure Probed (device : UsbDevice) (drivers : List UsbDriver) (usbControlMsg : UInt8 → Int)
    (probe : UsbDriver → Option UsbDeviceId → Int) : Prop where
  nodev : (deviceDriverProbe device drivers usbControlMsg probe).retval = - ENODEV ∧
      (deviceDriverProbe device drivers usbControlMsg probe).transfers = [] ↔
    ¬∃ driver ∈ drivers, driver.Supports device
  probed : (∃ driver ∈ drivers, driver.Supports device) → 0 ≤ usbControlMsg device.bConfigurationValue →
    ∃ driver ∈ drivers, ∃ id ∈ driver.entries, id.Matches device ∧
      (deviceDriverProbe device drivers usbControlMsg probe).probed = [(driver, some id)]

/-- The drivers that are registered after the last one with a matching entry have no entries. -/
def LastUnfollowed (device : UsbDevice) (drivers : List UsbDriver) : Prop :=
  ∀ before driver after, drivers = before ++ driver :: after → driver.Supports device →
    (∀ later ∈ after, ¬later.Supports device) → ∀ later ∈ after, later.entries = []

section Scan
variable {device : UsbDevice} {drv : UsbDriver} {scan : Scan}

theorem passes_iff (id : UsbDeviceId) : criteria.all (Criterion.passes device id) = true ↔ id.Matches device := by
  have one (criterion : Criterion) : Criterion.passes device id criterion = true ↔
      (id.matchFlags &&& criterion.flag ≠ 0 → criterion.ofDevice device = criterion.ofId id) := by
    unfold Criterion.passes
    split_ifs with selected
    · rw [decide_eq_true_eq]
      exact ⟨fun same _ => same, fun same => same selected⟩
    · exact iff_of_true rfl fun some => absurd some selected
  rw [all_eq_true]
  constructor
  · intro all criterion
    exact (one criterion).mp (all criterion (by cases criterion <;> decide))
  · intro matching criterion _
    exact (one criterion).mpr (matching criterion)

theorem scanTable_supported {table : List UsbDeviceId}
    (supported : ∃ id ∈ table.takeWhile fun id => id.matchFlags ≠ 0, id.Matches device) :
    ∃ id ∈ table.takeWhile fun id => id.matchFlags ≠ 0, id.Matches device ∧
      scanTable device drv table scan = ⟨some drv, some id⟩ := by
  induction table generalizing scan with
  | nil =>
    obtain ⟨id, there, -⟩ := supported
    cases there
  | cons first rest ih =>
    unfold scanTable
    by_cases ends : first.matchFlags = 0
    · rw [takeWhile_cons_of_neg (by simpa using ends)] at supported
      obtain ⟨id, there, -⟩ := supported
      cases there
    · rw [takeWhile_cons_of_pos (by simpa using ends)] at supported ⊢
      rw [if_neg ends]
      by_cases matching : first.Matches device
      · rw [if_pos ((passes_iff first).mpr matching)]
        exact ⟨first, mem_cons_self, matching, rfl⟩
      · rw [if_neg (mt (passes_iff first).mp matching)]
        obtain ⟨id, there, same⟩ := supported
        rcases mem_cons.mp there with rfl | there
        · exact absurd same matching
        · obtain ⟨id, there, same, scanned⟩ := @ih { scan with id := some first } ⟨id, there, same⟩
          exact ⟨id, mem_cons_of_mem _ there, same, scanned⟩

theorem scanTable_unsupported {table : List UsbDeviceId}
    (unsupported : ∀ id ∈ table.takeWhile fun id => id.matchFlags ≠ 0, ¬id.Matches device) :
    scanTable device drv table scan =
      ⟨scan.driver, (table.takeWhile fun id => id.matchFlags ≠ 0).getLast?.or scan.id⟩ := by
  induction table generalizing scan with
  | nil => rfl
  | cons first rest ih =>
    unfold scanTable
    by_cases ends : first.matchFlags = 0
    · rw [takeWhile_cons_of_neg (by simpa using ends), if_pos ends]
      rfl
    · rw [takeWhile_cons_of_pos (by simpa using ends)] at unsupported ⊢
      rw [if_neg ends, if_neg (mt (passes_iff first).mp (unsupported first mem_cons_self)),
        ih fun id there => unsupported id (mem_cons_of_mem _ there), List.getLast?_cons]
      cases (rest.takeWhile fun id => id.matchFlags ≠ 0).getLast? <;> rfl

/-- Drivers that do not support the device leave the driver, and the entry when they have none. An entry that they leave
does not match. -/
theorem scan_unsupported {after : List UsbDriver} (unsupported : ∀ later ∈ after, ¬later.Supports device) :
    ∃ id, after.foldl (fun scan drv => scanTable device drv drv.idTable scan) scan = ⟨scan.driver, id⟩ ∧
      ((∀ later ∈ after, later.entries = []) ∧ id = scan.id ∨
        (∃ later ∈ after, later.entries ≠ []) ∧ ∃ left, id = some left ∧ ¬left.Matches device) := by
  induction after generalizing scan with
  | nil => exact ⟨scan.id, rfl, .inl ⟨nofun, rfl⟩⟩
  | cons later rest ih =>
    have here : ∀ id ∈ later.entries, ¬id.Matches device :=
      fun id there same => unsupported later mem_cons_self ⟨id, there, same⟩
    rw [foldl_cons, scanTable_unsupported here]
    obtain ⟨id, scanned, left⟩ := @ih ⟨scan.driver, later.entries.getLast?.or scan.id⟩
      fun other there => unsupported other (mem_cons_of_mem _ there)
    refine ⟨id, scanned, ?_⟩
    rcases left with ⟨empty, same⟩ | ⟨⟨other, there, some⟩, left⟩
    · cases last : later.entries.getLast? with
      | none =>
        refine .inl ⟨fun other there => ?_, by rw [same, last, Option.none_or]⟩
        rcases mem_cons.mp there with rfl | there
        · exact List.getLast?_eq_none_iff.mp last
        · exact empty other there
      | some entry =>
        have member := mem_of_getLast? last
        refine .inr ⟨⟨later, mem_cons_self, ne_nil_of_mem member⟩, entry, ?_, here entry member⟩
        rw [same, last, Option.some_or]
    · exact .inr ⟨⟨other, mem_cons_of_mem _ there, some⟩, left⟩

theorem last_supporting {drivers : List UsbDriver} (supported : ∃ driver ∈ drivers, driver.Supports device) :
    ∃ before driver after, drivers = before ++ driver :: after ∧ driver.Supports device ∧
      ∀ later ∈ after, ¬later.Supports device := by
  induction drivers with
  | nil =>
    obtain ⟨driver, there, -⟩ := supported
    cases there
  | cons first rest ih =>
    by_cases later : ∃ driver ∈ rest, driver.Supports device
    · obtain ⟨before, driver, after, rfl, supports, unsupported⟩ := ih later
      exact ⟨first :: before, driver, after, rfl, supports, unsupported⟩
    · obtain ⟨driver, there, supports⟩ := supported
      rcases mem_cons.mp there with rfl | there
      · exact ⟨[], driver, rest, rfl, supports, fun other there same => later ⟨other, there, same⟩⟩
      · exact absurd ⟨driver, there, supports⟩ later

theorem scan_supported {before after : List UsbDriver} {driver : UsbDriver} (supports : driver.Supports device)
    (unsupported : ∀ later ∈ after, ¬later.Supports device) :
    ∃ id, scanDrivers device (before ++ driver :: after) = ⟨some driver, some id⟩ ∧
      ((∀ later ∈ after, later.entries = []) ∧ id ∈ driver.entries ∧ id.Matches device ∨
        (∃ later ∈ after, later.entries ≠ []) ∧ ¬id.Matches device) := by
  unfold scanDrivers
  rw [foldl_append, foldl_cons]
  obtain ⟨entry, member, matching, scanned⟩ := @scanTable_supported device driver
    (before.foldl (fun scan drv => scanTable device drv drv.idTable scan) ⟨none, none⟩) _ supports
  rw [scanned]
  obtain ⟨id, scanned, ⟨empty, same⟩ | ⟨some, left, same, differs⟩⟩ := @scan_unsupported device
    ⟨some driver, some entry⟩ _ unsupported
  · exact ⟨entry, scanned.trans (by rw [same]), .inl ⟨empty, member, matching⟩⟩
  · exact ⟨left, scanned.trans (by rw [same]), .inr ⟨some, differs⟩⟩

end Scan

theorem registered_eq (drivers : List UsbDriver) : drivers.foldl usbRegisterDriver [] = drivers := by
  have append (first : List UsbDriver) : drivers.foldl usbRegisterDriver first = first ++ drivers := by
    induction drivers generalizing first with
    | nil => exact (append_nil first).symm
    | cons driver rest ih => rw [foldl_cons, ih, usbRegisterDriver, append_assoc, singleton_append]
  exact append []

section Outcome
variable {device : UsbDevice} {drivers : List UsbDriver} {usbControlMsg : UInt8 → Int}
  {probe : UsbDriver → Option UsbDeviceId → Int}

theorem outcome_unsupported (unsupported : ¬∃ driver ∈ drivers, driver.Supports device) :
    deviceDriverProbe device drivers usbControlMsg probe = ⟨- ENODEV, [], []⟩ := by
  obtain ⟨id, scanned, -⟩ := @scan_unsupported device ⟨none, none⟩ _
    fun driver there supports => unsupported ⟨driver, there, supports⟩
  unfold deviceDriverProbe scanDrivers
  rw [scanned]

/-- A device is configured, and probed by the driver that the scan finds. -/
theorem outcome_supported {driver : UsbDriver} {id : Option UsbDeviceId}
    (scanned : scanDrivers device drivers = ⟨some driver, id⟩) :
    (deviceDriverProbe device drivers usbControlMsg probe).transfers = [device.bConfigurationValue] ∧
      (0 ≤ usbControlMsg device.bConfigurationValue →
        (deviceDriverProbe device drivers usbControlMsg probe).probed = [(driver, id)]) := by
  unfold deviceDriverProbe
  rw [scanned]
  by_cases failed : usbControlMsg device.bConfigurationValue < 0
  · simp only [if_pos failed]
    exact ⟨trivial, fun done => absurd failed (Int.not_lt.mpr done)⟩
  · simp only [if_neg failed]
    exact ⟨trivial, fun _ => trivial⟩

end Outcome

/-- Whatever the transfer and the drivers return, the device gets a driver and an entry of it exactly when no driver with
entries has been registered after the last one that supports the device. -/
theorem driver_matching_iff (device : UsbDevice) (registered : List UsbDriver) :
    (∀ usbControlMsg probe, Probed device (registered.foldl usbRegisterDriver []) usbControlMsg probe) ↔
      LastUnfollowed device registered := by
  rw [registered_eq]
  constructor
  · intro probed before driver after parts supports unsupported
    obtain ⟨id, scanned, ⟨empty, -⟩ | ⟨-, differs⟩⟩ := @scan_supported device before _ _ supports unsupported
    · exact empty
    · rw [← parts] at scanned
      have member : driver ∈ registered := parts ▸ List.mem_append_right _ List.mem_cons_self
      obtain ⟨other, -, entry, -, matching, called⟩ := (probed (fun _ => 0) fun _ _ => 0).probed
        ⟨driver, member, supports⟩ (Int.le_refl 0)
      rw [(outcome_supported scanned).2 (Int.le_refl 0)] at called
      obtain ⟨⟨-, rfl⟩, -⟩ : (driver = other ∧ id = entry) ∧ True := by simpa using called
      exact absurd matching differs
  · intro unfollowed usbControlMsg probe
    by_cases supported : ∃ driver ∈ registered, driver.Supports device
    · obtain ⟨before, driver, after, parts, supports, unsupported⟩ := last_supporting supported
      have empty := unfollowed before driver after parts supports unsupported
      obtain ⟨id, scanned, ⟨-, member, matching⟩ | ⟨⟨later, there, some⟩, -⟩⟩ :=
        @scan_supported device before _ _ supports unsupported
      · rw [← parts] at scanned
        obtain ⟨transfers, called⟩ := @outcome_supported _ _ usbControlMsg probe _ _ scanned
        refine ⟨iff_of_false (fun refused => ?_) (not_not.mpr supported), fun _ done => ?_⟩
        · rw [transfers] at refused
          cases refused.2
        · exact ⟨driver, parts ▸ List.mem_append_right _ List.mem_cons_self, id, member, matching, called done⟩
      · exact absurd (empty later there) some
    · refine ⟨iff_of_true ?_ supported, fun some => absurd some supported⟩
      rw [outcome_unsupported supported]
      exact ⟨rfl, rfl⟩

/-- The `hub` driver that was registered before another one gets an entry of the other table. -/
theorem driver_matching_other_entry :
    let hub : UsbDriver := ⟨1, [⟨0, 0, 9, 0, 0, 0, 0, 0, 4⟩]⟩
    let bridge : UsbDriver := ⟨2, [⟨0xffff, 1, 0, 0, 0, 0, 0, 0, 3⟩]⟩
    let device : UsbDevice := ⟨⟨0x0424, 0x2512, 9, 0, 0⟩, ⟨9, 0, 0⟩, 1⟩
    (deviceDriverProbe device [hub, bridge] (fun _ => 0) fun _ _ => 0).probed =
        [(hub, some ⟨0xffff, 1, 0, 0, 0, 0, 0, 0, 3⟩)] ∧
      ¬ Probed device [hub, bridge] (fun _ => 0) fun _ _ => 0 := by
  intro hub bridge device
  have called : (deviceDriverProbe device [hub, bridge] (fun _ => 0) fun _ _ => 0).probed =
      [(hub, some ⟨0xffff, 1, 0, 0, 0, 0, 0, 0, 3⟩)] := by decide
  have supports : hub.Supports device := by
    refine ⟨⟨0, 0, 9, 0, 0, 0, 0, 0, 4⟩, by decide, fun criterion selected => ?_⟩
    cases criterion <;> first | rfl | exact absurd selected (by decide)
  refine ⟨called, fun right => ?_⟩
  obtain ⟨driver, -, id, -, matching, passed⟩ := right.probed ⟨hub, List.mem_cons_self, supports⟩ (by decide)
  rw [called] at passed
  obtain ⟨⟨-, rfl⟩, -⟩ : (hub = driver ∧ (⟨0xffff, 1, 0, 0, 0, 0, 0, 0, 3⟩ : UsbDeviceId) = id) ∧ True := by
    simpa using passed
  exact absurd (matching .vendor (by decide)) (by decide)

end Phabos.UsbHost
