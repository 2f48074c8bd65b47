import Mathlib.Data.List.Flatten
import Mathlib.Data.List.Induction
import Mathlib.Order.Monotone.Basic
import Phabos.Construction.Usb.ConfigDescriptor
import Phabos.Proof.Usb.DriverMatching

namespace Phabos.UsbHost
open List

section Chain
variable (config : ℕ → UInt8)

/-- The addresses to which the lengths lead from the first descriptor on -/
def chain : ℕ → ℕ
  | 0 => 0
  | n + 1 => chain n + bLength config (chain n)

/-- The second descriptor of the chain is looked at in any case, and a later one when it begins more than two bytes in
front of the total length. -/
def Visits (n : ℕ) : Prop := n = 1 ∨ 1 < n ∧ chain config n + 2 < wTotalLength config

/-- A descriptor ends within the total length. -/
def Fits (n : ℕ) : Prop := chain config (n + 1) ≤ wTotalLength config

/-- A descriptor of the chain is an interface with this number. -/
def Hit (id n : ℕ) : Prop :=
  bDescriptorType config (chain config n) = USB_DESCRIPTOR_INTERFACE ∧ bInterfaceNumber config (chain config n) = id

instance (id n : ℕ) : Decidable (Hit config id n) := inferInstanceAs (Decidable (_ ∧ _))

variable {config}

theorem Visits.pos {n : ℕ} (visits : Visits config n) : 0 < n := by
  rcases visits with rfl | ⟨later, -⟩
  · exact Nat.one_pos
  · exact Nat.zero_lt_of_lt later

theorem chain_mono : Monotone (chain config) := monotone_nat_of_le_succ fun _ => Nat.le_add_right _ _

theorem Visits.earlier {n last : ℕ} (visits : Visits config last) (positive : 0 < n) (before : n ≤ last) :
    Visits config n := by
  have order : chain config n ≤ chain config last := chain_mono before
  unfold Visits at visits ⊢
  omega

theorem hit_large {id : ℕ} (large : 256 ≤ id) (n : ℕ) : ¬Hit config id n := by
  rintro ⟨-, same⟩
  have byte := (config (chain config n + 2)).toNat_lt
  exact absurd (same.trans_ge large) (Nat.not_le_of_lt byte)

theorem chain_stuck {stuck : ℕ} (zero : bLength config (chain config stuck) = 0) (n : ℕ) :
    chain config n ≤ chain config stuck := by
  rcases Nat.le_total n stuck with before | after
  · exact chain_mono before
  · obtain ⟨more, rfl⟩ := Nat.exists_eq_add_of_le after
    apply Nat.le_of_eq
    induction more with
    | zero => rfl
    | succ more ih =>
      have same := ih (Nat.le_add_right _ _)
      rw [← Nat.add_assoc, chain, same, zero, Nat.add_zero]

end Chain

section Walk
variable {host : Host} {config : ℕ → UInt8} {id : ℕ}

/-- The addresses that the turn of a descriptor reads -/
def turnReads (config : ℕ → UInt8) (n : ℕ) : List ℕ :=
  [chain config (n - 1), chain config n] ++
    if wTotalLength config < chain config (n + 1) then []
    else if bDescriptorType config (chain config n) = USB_DESCRIPTOR_INTERFACE then
      [chain config n + 1, chain config n + 2]
    else [chain config n + 1]

/-- The loop has ended behind its turns up to a last one. -/
structure Ended (host : Host) (config : ℕ → UInt8) (id first last : ℕ) (reads : List ℕ) (probe : InterfaceProbe) :
    Prop where
  after : first < last
  visits : Visits config last
  passed : ∀ n, first < n → n < last → ¬Hit config id n
  ended : ∃ all : List ℕ, (∀ address, address ∈ all ↔
      address ∈ reads ∨ ∃ n, first < n ∧ n ≤ last ∧ address ∈ turnReads config n) ∧
    (¬Fits config last ∧ probe = ⟨- EINVAL, all, none, []⟩ ∨
      Fits config last ∧ Hit config id last ∧ probe = probeDriver host config id (chain config last) all ∨
      Fits config last ∧ ¬Hit config id last ∧ wTotalLength config ≤ chain config (last + 1) + 2 ∧
        probe = ⟨- ENODEV, all, none, []⟩)

theorem turns_iff {first last : ℕ} (after : first + 1 < last) (address : ℕ) (reads : List ℕ) :
    (address ∈ reads ++ turnReads config (first + 1) ∨
        ∃ n, first + 1 < n ∧ n ≤ last ∧ address ∈ turnReads config n) ↔
      address ∈ reads ∨ ∃ n, first < n ∧ n ≤ last ∧ address ∈ turnReads config n := by
  rw [mem_append, or_assoc]
  refine or_congr_right ⟨?_, ?_⟩
  · rintro (here | ⟨n, behind, before, there⟩)
    · exact ⟨first + 1, Nat.lt_succ_self _, after.le, here⟩
    · exact ⟨n, Nat.lt_of_succ_lt behind, before, there⟩
  · rintro ⟨n, behind, before, there⟩
    rcases Nat.eq_or_lt_of_le (Nat.succ_le_of_lt behind) with rfl | later
    · exact .inl there
    · exact .inr ⟨n, later, before, there⟩

theorem turn_iff {first : ℕ} (address : ℕ) (reads : List ℕ) :
    address ∈ reads ++ turnReads config (first + 1) ↔
      address ∈ reads ∨ ∃ n, first < n ∧ n ≤ first + 1 ∧ address ∈ turnReads config n := by
  rw [mem_append]
  refine or_congr_right ⟨fun here => ⟨first + 1, Nat.lt_succ_self _, Nat.le_refl _, here⟩, ?_⟩
  rintro ⟨n, behind, before, there⟩
  obtain rfl : n = first + 1 := Nat.le_antisymm before behind
  exact there

theorem probeInterfaceFrom_turn (fuel first : ℕ) (reads : List ℕ) :
    probeInterfaceFrom host config id (fuel + 1) (chain config first) reads =
      let all := reads ++ turnReads config (first + 1)
      if wTotalLength config < chain config (first + 2) then some ⟨- EINVAL, all, none, []⟩
      else if Hit config id (first + 1) then some (probeDriver host config id (chain config (first + 1)) all)
      else if chain config (first + 2) + 2 < wTotalLength config then
        probeInterfaceFrom host config id fuel (chain config (first + 1)) all
      else some ⟨- ENODEV, all, none, []⟩ := by
  have next : chain config first + bLength config (chain config first) = chain config (first + 1) := rfl
  have behind : chain config (first + 1) + bLength config (chain config (first + 1)) = chain config (first + 2) := rfl
  simp only [probeInterfaceFrom, turnReads, Hit, descriptorHeaderSize, next, behind, Nat.add_sub_cancel]
  by_cases fits : wTotalLength config < chain config (first + 2)
  · simp only [if_pos fits, append_nil]
  · simp only [if_neg fits, append_assoc]

/-- The loop goes through the chain up to the first interface with the number, to the first descriptor that does not fit
or to the last one that begins early enough. -/
theorem probeInterfaceFrom_ended {fuel first : ℕ} {reads : List ℕ} {probe : InterfaceProbe}
    (visits : Visits config (first + 1))
    (returned : probeInterfaceFrom host config id fuel (chain config first) reads = some probe) :
    ∃ last, Ended host config id first last reads probe := by
  induction fuel generalizing first reads with
  | zero => cases returned
  | succ fuel ih =>
    have alone (n : ℕ) (after : first < n) (before : n < first + 1) : ¬Hit config id n := by omega
    rw [probeInterfaceFrom_turn] at returned
    by_cases long : wTotalLength config < chain config (first + 2)
    · rw [if_pos long] at returned
      exact ⟨first + 1, Nat.lt_succ_self _, visits, alone, _, fun address => @turn_iff config _ address reads,
        .inl ⟨Nat.not_le_of_lt long, (Option.some.inj returned).symm⟩⟩
    have fits : Fits config (first + 1) := Nat.le_of_not_lt long
    rw [if_neg long] at returned
    by_cases hit : Hit config id (first + 1)
    · rw [if_pos hit] at returned
      exact ⟨first + 1, Nat.lt_succ_self _, visits, alone, _, fun address => @turn_iff config _ address reads,
        .inr (.inl ⟨fits, hit, (Option.some.inj returned).symm⟩)⟩
    rw [if_neg hit] at returned
    by_cases goes : chain config (first + 2) + 2 < wTotalLength config
    · rw [if_pos goes] at returned
      obtain ⟨last, ended⟩ := ih (.inr ⟨by omega, goes⟩) returned
      obtain ⟨all, reads_iff, ends⟩ := ended.ended
      have after := ended.after
      refine ⟨last, by omega, ended.visits, fun n behind before => ?_, all, fun address => ?_, ends⟩
      · rcases Nat.eq_or_lt_of_le (Nat.succ_le_of_lt behind) with rfl | later
        · exact hit
        · exact ended.passed n later before
      · rw [reads_iff, turns_iff after]
    · rw [if_neg goes] at returned
      exact ⟨first + 1, Nat.lt_succ_self _, visits, alone, _, fun address => @turn_iff config _ address reads,
        .inr (.inr ⟨fits, hit, Nat.le_of_not_lt goes, (Option.some.inj returned).symm⟩)⟩

theorem probeInterfaceFrom_some (first : ℕ) (reads : List ℕ)
    (long : ∀ n, Visits config n → bLength config (chain config n) ≠ 0 ∨ wTotalLength config ≤ chain config n + 2)
    (visits : Visits config (first + 1)) :
    ∃ fuel probe, probeInterfaceFrom host config id fuel (chain config first) reads = some probe := by
  generalize room : wTotalLength config - chain config (first + 1) = rest
  induction rest using Nat.strong_induction_on generalizing first reads with
  | _ rest ih =>
    by_cases goes : chain config (first + 2) + 2 < wTotalLength config
    · have next : chain config (first + 2) = chain config (first + 1) + bLength config (chain config (first + 1)) := rfl
      have some := (long _ visits).resolve_right (by omega)
      obtain ⟨fuel, probe, returned⟩ := ih (wTotalLength config - chain config (first + 2)) (by omega) (first + 1)
        (reads ++ turnReads config (first + 1)) (.inr ⟨by omega, goes⟩) rfl
      refine ⟨fuel + 1, ?_⟩
      simp only [probeInterfaceFrom_turn, if_pos goes, returned]
      split_ifs <;> exact ⟨_, rfl⟩
    · refine ⟨1, ?_⟩
      simp only [probeInterfaceFrom_turn, if_neg goes]
      split_ifs <;> exact ⟨_, rfl⟩

theorem probeInterfaceFrom_stuck {stuck : ℕ} (zero : bLength config (chain config stuck) = 0)
    (early : chain config stuck + 2 < wTotalLength config) (large : 256 ≤ id) (fuel first : ℕ) (reads : List ℕ) :
    probeInterfaceFrom host config id fuel (chain config first) reads = none := by
  induction fuel generalizing first reads with
  | zero => rfl
  | succ fuel ih =>
    have here := chain_stuck zero (first + 2)
    rw [probeInterfaceFrom_turn, if_neg (by omega), if_neg (hit_large large _), if_pos (by omega)]
    exact ih (first + 1) _

end Walk

/-- The bytes that have been received -/
def received (config : ℕ → UInt8) (size : ℕ) : List UInt8 := (List.range size).map config

/-- A descriptor is an interface with this number. -/
def IsInterface (descriptor : List UInt8) (id : ℕ) : Prop :=
  descriptor.getD 1 0 = USB_DESCRIPTOR_INTERFACE ∧ (descriptor.getD 2 0).toNat = id

/-- The descriptors tile the buffer: each begins with its length and its type, an interface has a number as well, and the
configuration comes first. -/
structure Tiles (config : ℕ → UInt8) (size : ℕ) (descriptors : List (List UInt8)) : Prop where
  bytes : received config size = descriptors.flatten
  lengths : ∀ descriptor ∈ descriptors, 2 ≤ descriptor.length ∧ (descriptor.getD 0 0).toNat = descriptor.length
  numbers : ∀ descriptor ∈ descriptors, descriptor.getD 1 0 = USB_DESCRIPTOR_INTERFACE → 3 ≤ descriptor.length
  first : ∀ descriptor ∈ descriptors.head?, descriptor.getD 1 0 = USB_DESCRIPTOR_CONFIGURATION

/-- A call of `device_probe_interface` ends, reads inside the buffer, and finds the first interface with the number when
the descriptors tile the buffer. -/
structure Parsed (host : Host) (config : ℕ → UInt8) (size id : ℕ) : Prop where
  ends : ∃ fuel probe, deviceProbeInterface host config id fuel = some probe
  inside : ∀ fuel probe, deviceProbeInterface host config id fuel = some probe →
    ∀ address ∈ probe.reads, address < size
  finds : ∀ before descriptor after, Tiles config size (before ++ descriptor :: after) → IsInterface descriptor id →
    (∀ other ∈ before, ¬IsInterface other id) →
    ∀ fuel probe, deviceProbeInterface host config id fuel = some probe → probe.interface = some before.flatten.length

/-- What the received bytes must be for the calls to go right -/
structure WellChained (host : Host) (config : ℕ → UInt8) (size : ℕ) : Prop where
  /-- The buffer has the total length of the configuration descriptor. -/
  header : 4 ≤ size
  /-- A descriptor that is looked at begins inside the buffer, and its type is there as well when it fits, and its number
  when it is an interface. -/
  inside : ∀ n, Visits config n → chain config n < size ∧ (Fits config n → chain config n + 1 < size ∧
    (bDescriptorType config (chain config n) = USB_DESCRIPTOR_INTERFACE → chain config n + 2 < size))
  /-- A descriptor without a length is not followed by another one. -/
  long : ∀ n, Visits config n → bLength config (chain config n) ≠ 0 ∨ wTotalLength config ≤ chain config n + 2
  /-- The buffer has the fields that the drivers ask for. -/
  drivers : ∀ n id, Visits config n → Fits config n → Hit config id n →
    (∀ earlier, 0 < earlier → earlier < n → ¬Hit config id earlier) →
    ∀ address ∈ driverProbeReads (host.device config (chain config n)) (chain config n) host.usbdevDriver, address < size
  /-- The total length of the second copy includes the first interface with each number when the descriptors tile the
  buffer. -/
  whole : ∀ before descriptor after id, Tiles config size (before ++ descriptor :: after) → IsInterface descriptor id →
    (∀ other ∈ before, ¬IsInterface other id) → before.flatten.length + descriptor.length ≤ wTotalLength config

section Interface
variable {host : Host} {config : ℕ → UInt8} {id last : ℕ} {reads : List ℕ} {probe : InterfaceProbe}

theorem visits_first : Visits config 1 := .inl rfl

section
variable (ended : Ended host config id 0 last reads probe)
include ended

/-- The loop has not ended in front of a descriptor that it looks at when no interface with the number comes earlier. -/
theorem Ended.reaches {n : ℕ} (visits : Visits config n)
    (fresh : ∀ earlier, 0 < earlier → earlier < n → ¬Hit config id earlier) : n ≤ last := by
  by_contra later
  have after := ended.after
  have before : chain config (last + 1) ≤ chain config n := chain_mono (by omega)
  rcases visits with rfl | ⟨-, early⟩
  · omega
  · obtain ⟨all, -, ⟨long, -⟩ | ⟨-, hit, -⟩ | ⟨-, -, ends, -⟩⟩ := ended.ended
    · unfold Fits at long
      omega
    · exact fresh last after (by omega) hit
    · omega

theorem Ended.found (fits : Fits config last) (hit : Hit config id last) :
    probe.interface = some (chain config last) ∧ ∀ address ∈
      driverProbeReads (host.device config (chain config last)) (chain config last) host.usbdevDriver,
      address ∈ probe.reads := by
  obtain ⟨all, -, ⟨long, -⟩ | ⟨-, -, rfl⟩ | ⟨-, other, -⟩⟩ := ended.ended
  · exact absurd fits long
  · exact ⟨rfl, fun address there => mem_append_right _ there⟩
  · exact absurd hit other

theorem Ended.reads_iff (address : ℕ) :
    address ∈ probe.reads ↔ address ∈ reads ∨ (∃ n, 0 < n ∧ n ≤ last ∧ address ∈ turnReads config n) ∨
      Fits config last ∧ Hit config id last ∧ address ∈
        driverProbeReads (host.device config (chain config last)) (chain config last) host.usbdevDriver := by
  rw [← or_assoc]
  obtain ⟨all, all_iff, ⟨long, rfl⟩ | ⟨fits, hit, rfl⟩ | ⟨-, other, -, rfl⟩⟩ := ended.ended
  · rw [all_iff]
    exact (or_iff_left fun both => long both.1).symm
  · refine mem_append.trans (or_congr (all_iff address) ?_)
    exact ⟨fun there => ⟨fits, hit, there⟩, fun parts => parts.2.2⟩
  · rw [all_iff]
    exact (or_iff_left fun both => other both.2.1).symm

end

theorem mem_turnReads {n address : ℕ} : address ∈ turnReads config n ↔
    address = chain config (n - 1) ∨ address = chain config n ∨ Fits config n ∧ (address = chain config n + 1 ∨
      bDescriptorType config (chain config n) = USB_DESCRIPTOR_INTERFACE ∧ address = chain config n + 2) := by
  unfold turnReads Fits
  by_cases long : wTotalLength config < chain config (n + 1)
  · simp [if_pos long, Nat.not_le_of_lt long]
  · by_cases interface : bDescriptorType config (chain config n) = USB_DESCRIPTOR_INTERFACE
    · simp [if_neg long, interface, Nat.le_of_not_lt long]
    · simp [if_neg long, interface, Nat.le_of_not_lt long]

end Interface

section Tiles
variable {config : ℕ → UInt8} {size : ℕ} {before after : List (List UInt8)} {descriptor : List UInt8}

theorem Tiles.member (_ : Tiles config size (before ++ descriptor :: after)) :
    descriptor ∈ before ++ descriptor :: after := mem_append_right _ mem_cons_self

section
variable (tiles : Tiles config size (before ++ descriptor :: after))
include tiles

theorem Tiles.byte {i : ℕ} (inside : i < descriptor.length) :
    config (before.flatten.length + i) = descriptor.getD i 0 := by
  have total := congrArg length tiles.bytes
  have here := congrArg (fun bytes => bytes[before.flatten.length + i]?) tiles.bytes
  simp only [received, flatten_append, flatten_cons, length_map, length_range,
    length_append] at total here
  rw [List.getElem?_append_right (Nat.le_add_right _ _), Nat.add_sub_cancel_left, List.getElem?_append_left inside,
    List.getElem?_map, List.getElem?_range (by omega)] at here
  rw [List.getD_eq_getElem?_getD, ← here]
  rfl

theorem Tiles.chain_eq : chain config before.length = before.flatten.length := by
  induction before using reverseRecOn generalizing descriptor after with
  | nil => rfl
  | append_singleton before other ih =>
    rw [append_assoc, singleton_append] at tiles
    obtain ⟨long, own⟩ := tiles.lengths other tiles.member
    have first := tiles.byte (show 0 < other.length by omega)
    rw [length_append, length_singleton, chain, ih tiles, bLength, ← Nat.add_zero before.flatten.length,
      first, own, flatten_append, length_append, flatten_singleton, Nat.add_zero]

theorem Tiles.chain_succ : chain config (before.length + 1) = before.flatten.length + descriptor.length := by
  obtain ⟨long, own⟩ := tiles.lengths descriptor tiles.member
  have first := tiles.byte (show 0 < descriptor.length by omega)
  rw [chain, tiles.chain_eq, bLength, ← Nat.add_zero before.flatten.length, first, own, Nat.add_zero]

theorem Tiles.hit_iff (id : ℕ) : Hit config id before.length ↔ IsInterface descriptor id := by
  obtain ⟨long, -⟩ := tiles.lengths descriptor tiles.member
  unfold Hit IsInterface bDescriptorType bInterfaceNumber
  rw [tiles.chain_eq, tiles.byte (show 1 < descriptor.length by omega)]
  refine and_congr_right fun interface => ?_
  rw [tiles.byte (tiles.numbers descriptor tiles.member interface)]

theorem Tiles.fresh {id : ℕ} (others : ∀ other ∈ before, ¬IsInterface other id) {n : ℕ} (earlier : n < before.length) :
    ¬Hit config id n := by
  have split : before.take n ++ before[n] :: (before.drop (n + 1) ++ descriptor :: after) =
      before ++ descriptor :: after := by
    rw [← cons_append, ← append_assoc, ← drop_eq_getElem_cons earlier, take_append_drop]
  have here := (split ▸ tiles).hit_iff id
  rw [length_take, Nat.min_eq_left earlier.le] at here
  exact fun hit => others _ (getElem_mem earlier) (here.mp hit)

theorem Tiles.behind {id : ℕ} (interface : IsInterface descriptor id) : 0 < before.length := by
  cases before with
  | nil =>
    have configuration := tiles.first descriptor rfl
    exact absurd (interface.1.symm.trans configuration) (by decide)
  | cons first rest => exact Nat.succ_pos _

end

end Tiles

section Parsed
variable {host : Host} {answer : Answer} {config : ℕ → UInt8} {size id : ℕ}

theorem deviceProbeInterface_ended {fuel : ℕ} {probe : InterfaceProbe}
    (returned : deviceProbeInterface host config id fuel = some probe) :
    ∃ last, Ended host config id 0 last [2, 3] probe :=
  probeInterfaceFrom_ended visits_first returned

theorem wellChained_of_parsed (parsed : ∀ id, Parsed host config size id) : WellChained host config size := by
  obtain ⟨fuel, probe, returned⟩ := (parsed 256).ends
  obtain ⟨last, ended⟩ := deviceProbeInterface_ended returned
  have inside := (parsed 256).inside fuel probe returned
  have turn {n : ℕ} (visits : Visits config n) {address : ℕ} (there : address ∈ turnReads config n) :
      address < size := by
    have before := ended.reaches visits fun earlier _ _ => hit_large (Nat.le_refl _) earlier
    exact inside address ((ended.reads_iff address).mpr (.inr (.inl ⟨n, visits.pos, before, there⟩)))
  constructor
  case header => exact inside 3 ((ended.reads_iff 3).mpr (.inl (by decide)))
  case inside =>
    intro n visits
    refine ⟨turn visits (mem_turnReads.mpr (.inr (.inl rfl))), fun fits => ⟨?_, fun interface => ?_⟩⟩
    · exact turn visits (mem_turnReads.mpr (.inr (.inr ⟨fits, .inl rfl⟩)))
    · exact turn visits (mem_turnReads.mpr (.inr (.inr ⟨fits, .inr ⟨interface, rfl⟩⟩)))
  case long =>
    intro n visits
    by_contra short
    obtain ⟨zero, early⟩ := not_or.mp short
    have never := @probeInterfaceFrom_stuck host _ _ _ (not_not.mp zero) (Nat.lt_of_not_le early) (Nat.le_refl 256)
      fuel 0 [2, 3]
    cases returned.symm.trans never
  case drivers =>
    intro n id visits fits hit fresh address there
    obtain ⟨fuel, probe, returned⟩ := (parsed id).ends
    obtain ⟨last, ended⟩ := deviceProbeInterface_ended returned
    obtain rfl : n = last := by
      refine Nat.le_antisymm (ended.reaches visits fresh) ?_
      exact Nat.le_of_not_lt fun before => ended.passed n visits.pos before hit
    exact (parsed id).inside fuel probe returned address ((ended.found fits hit).2 address there)
  case whole =>
    intro before descriptor after id tiles interface others
    obtain ⟨fuel, probe, returned⟩ := (parsed id).ends
    obtain ⟨last, ended⟩ := deviceProbeInterface_ended returned
    have found := (parsed id).finds before descriptor after tiles interface others fuel probe returned
    obtain ⟨all, -, ⟨-, rfl⟩ | ⟨fits, -, rfl⟩ | ⟨-, -, -, rfl⟩⟩ := ended.ended
    · cases found
    · have same : chain config last = chain config before.length := by
        rw [tiles.chain_eq]
        exact Option.some.inj found
      rw [← tiles.chain_succ, chain, ← same]
      exact fits
    · cases found

/-- A well-chained configuration is parsed. -/
theorem WellChained.parsed (wellChained : WellChained host config size) (id : ℕ) : Parsed host config size id := by
  constructor
  case ends => exact probeInterfaceFrom_some 0 [2, 3] wellChained.long visits_first
  case inside =>
    intro fuel probe returned address there
    obtain ⟨last, ended⟩ := deviceProbeInterface_ended returned
    have header := wellChained.header
    rcases (ended.reads_iff address).mp there with total | ⟨n, positive, before, there⟩ | ⟨fits, hit, there⟩
    · have small : address ≤ 3 := by
        simp only [mem_cons, not_mem_nil, or_false] at total
        omega
      omega
    · obtain ⟨start, type⟩ := wellChained.inside n (ended.visits.earlier positive before)
      rcases mem_turnReads.mp there with rfl | rfl | ⟨fits, rfl | ⟨interface, rfl⟩⟩
      · exact (chain_mono (Nat.sub_le n 1)).trans_lt start
      · exact start
      · exact (type fits).1
      · exact (type fits).2 interface
    · exact wellChained.drivers last id ended.visits fits hit ended.passed address there
  case finds =>
    intro before descriptor after tiles interface others fuel probe returned
    obtain ⟨last, ended⟩ := deviceProbeInterface_ended returned
    have hit := (tiles.hit_iff id).mpr interface
    have behind := tiles.behind interface
    have fits : Fits config before.length := by
      unfold Fits
      rw [tiles.chain_succ]
      exact wellChained.whole before descriptor after id tiles interface others
    have long := tiles.numbers descriptor tiles.member interface.1
    have visits : Visits config before.length := by
      have whole := wellChained.whole before descriptor after id tiles interface others
      rcases Nat.eq_or_lt_of_le (Nat.succ_le_of_lt behind) with first | later
      · exact .inl first.symm
      · exact .inr ⟨later, by rw [tiles.chain_eq]; omega⟩
    obtain rfl : before.length = last := by
      refine Nat.le_antisymm (ended.reaches visits fun n _ earlier => tiles.fresh others earlier) ?_
      exact Nat.le_of_not_lt fun earlier => ended.passed _ behind earlier hit
    rw [(ended.found fits hit).1, tiles.chain_eq]

theorem unprobed_interface {fuel : ℕ} {probe : InterfaceProbe}
    (returned : deviceProbeInterface host config id fuel = some probe) (unprobed : probe.probed = []) :
    probe.retval ≠ 0 := by
  obtain ⟨last, ended⟩ := deviceProbeInterface_ended returned
  obtain ⟨all, -, ⟨-, rfl⟩ | ⟨-, -, rfl⟩ | ⟨-, -, -, rfl⟩⟩ := ended.ended
  · exact show (- EINVAL : Int) ≠ 0 by decide
  · simp only [probeDriver, deviceDriverProbe] at unprobed ⊢
    cases found : (scanDrivers (host.device config (chain config last)) host.usbdevDriver).driver with
    | none => exact show (- ENODEV : Int) ≠ 0 by decide
    | some driver =>
      simp only [found] at unprobed ⊢
      split_ifs at unprobed ⊢ with failed
      exact Int.ne_of_lt failed
  · exact show (- ENODEV : Int) ≠ 0 by decide

theorem unprobed_interfaces {fuel count i : ℕ} {retval result : Int}
    {probed all : List (UsbDriver × Option UsbDeviceId)} (some_turn : count ≠ 0 ∨ retval ≠ 0)
    (returned : probeInterfaces host answer fuel count i retval probed = some (result, all)) (unprobed : all = []) :
    result ≠ 0 := by
  induction count generalizing i retval probed with
  | zero =>
    obtain ⟨rfl, rfl⟩ := Prod.mk.inj (Option.some.inj returned)
    exact some_turn.resolve_left fun nonzero => nonzero rfl
  | succ count ih =>
    obtain ⟨probe, here, returned⟩ := Option.bind_eq_some_iff.mp returned
    by_cases found : probe.retval = 0
    · rw [if_pos found] at returned
      obtain ⟨-, rfl⟩ := Prod.mk.inj (Option.some.inj returned)
      exact absurd found (unprobed_interface here (append_eq_nil_iff.mp unprobed).2)
    · rw [if_neg found] at returned
      exact ih (.inr found) returned

end Parsed

/-- The first transfer has brought a configuration descriptor. -/
def Answer.HeaderGood (answer : Answer) : Prop :=
  answer.headerSize = configDescriptorSize ∧ answer.headerSize = answer.headerLength.toNat

/-- The buffer has been allocated and filled. -/
def Answer.Received (answer : Answer) : Prop :=
  answer.HeaderGood ∧ answer.kmalloc = true ∧ answer.size = answer.headerTotalLength.toNat

/-- The received bytes are parsed, an error leaves no buffer behind, and a configuration whose interfaces reach no driver
is an error, whatever `retval` is at first. -/
structure Handled (host : Host) (answer : Answer) (config : Option ConfigBuffer) : Prop where
  parsed : answer.Received → ∀ id, Parsed host answer.config answer.headerTotalLength.toNat id
  freed : ∀ fuel retval probe, deviceProbeConfiguration host answer fuel config retval = some probe → probe.retval ≠ 0 →
    probe.allocated = false ∧ probe.config = none
  reported : ∀ fuel retval probe, deviceProbeConfiguration host answer fuel config retval = some probe →
    probe.probed = [] → probe.retval ≠ 0

/-- What the device must answer, and `device->config` must be before, for the configuration to be handled -/
structure WellAnswered (host : Host) (answer : Answer) (config : Option ConfigBuffer) : Prop where
  earlier : config = none ∨ answer.HeaderGood
  transferred : answer.HeaderGood → answer.kmalloc = true → answer.size = answer.headerTotalLength.toNat
  interfaces : answer.Received → bNumInterfaces answer.config ≠ 0
  chained : answer.Received → WellChained host answer.config answer.headerTotalLength.toNat

section Configuration
variable {host : Host} {answer : Answer} {config : Option ConfigBuffer} {fuel : ℕ} {retval : Int}

instance : Decidable answer.HeaderGood := inferInstanceAs (Decidable (_ ∧ _))

theorem deviceProbeConfiguration_eq : deviceProbeConfiguration host answer fuel config retval =
    if ¬answer.HeaderGood then some ⟨- EIO, config, false, []⟩
    else if answer.kmalloc = false then some ⟨- ENOMEM, none, false, []⟩
    else if answer.size ≠ answer.headerTotalLength.toNat then some ⟨- EIO, some .fresh, true, []⟩
    else (probeInterfaces host answer fuel (bNumInterfaces answer.config) 0 retval []).map fun (retval, probed) =>
      if retval ≠ 0 then ⟨retval, none, false, probed⟩ else ⟨retval, some .fresh, true, probed⟩ := by
  unfold deviceProbeConfiguration Answer.HeaderGood
  refine if_congr ?_ rfl rfl
  rw [not_and_or]

/-- How the probe of a configuration can end. -/
theorem configuration_cases {probe : ConfigurationProbe}
    (returned : deviceProbeConfiguration host answer fuel config retval = some probe) :
    ¬answer.HeaderGood ∧ probe = ⟨- EIO, config, false, []⟩ ∨ probe = ⟨- ENOMEM, none, false, []⟩ ∨
      answer.HeaderGood ∧ answer.kmalloc = true ∧ answer.size ≠ answer.headerTotalLength.toNat ∧
        probe = ⟨- EIO, some .fresh, true, []⟩ ∨
      answer.Received ∧ probeInterfaces host answer fuel (bNumInterfaces answer.config) 0 retval [] =
          some (probe.retval, probe.probed) ∧
        (probe.retval ≠ 0 → probe.allocated = false ∧ probe.config = none) := by
  rw [deviceProbeConfiguration_eq] at returned
  by_cases good : answer.HeaderGood
  swap
  · rw [if_pos good] at returned
    exact .inl ⟨good, (Option.some.inj returned).symm⟩
  rw [if_neg (not_not.mpr good)] at returned
  cases allocated : answer.kmalloc with
  | false =>
    rw [if_pos allocated] at returned
    exact .inr (.inl (Option.some.inj returned).symm)
  | true =>
    rw [if_neg (by rw [allocated]; decide)] at returned
    by_cases whole : answer.size = answer.headerTotalLength.toNat
    · rw [if_neg (not_not.mpr whole)] at returned
      obtain ⟨⟨result, probed⟩, ended, rfl⟩ := Option.map_eq_some_iff.mp returned
      refine .inr (.inr (.inr ⟨⟨good, allocated, whole⟩, ?_⟩))
      by_cases failed : result ≠ 0
      · simp only [if_pos failed]
        exact ⟨ended, fun _ => ⟨trivial, trivial⟩⟩
      · simp only [if_neg failed]
        exact ⟨ended, fun nonzero => absurd nonzero failed⟩
    · rw [if_pos whole] at returned
      exact .inr (.inr (.inl ⟨good, rfl, whole, (Option.some.inj returned).symm⟩))

/-- The bytes that a device returns as its configuration are handled exactly when they are well chained, have an interface
and come in one piece. -/
theorem config_descriptor_iff (host : Host) (answer : Answer) (config : Option ConfigBuffer) :
    Handled host answer config ↔ WellAnswered host answer config := by
  constructor
  · intro handled
    constructor
    case earlier =>
      by_cases good : answer.HeaderGood
      · exact .inr good
      · have returned : deviceProbeConfiguration host answer 0 config 0 = some ⟨- EIO, config, false, []⟩ := by
          rw [deviceProbeConfiguration_eq, if_pos good]
        exact .inl (handled.freed 0 0 _ returned (show (- EIO : Int) ≠ 0 by decide)).2
    case transferred =>
      intro good allocated
      by_contra short
      have returned : deviceProbeConfiguration host answer 0 config 0 = some ⟨- EIO, some .fresh, true, []⟩ := by
        rw [deviceProbeConfiguration_eq, if_neg (not_not.mpr good), if_neg (by rw [allocated]; decide), if_pos short]
      cases (handled.freed 0 0 _ returned (show (- EIO : Int) ≠ 0 by decide)).1
    case interfaces =>
      rintro ⟨good, allocated, whole⟩ empty
      have returned : deviceProbeConfiguration host answer 0 config 0 = some ⟨0, some .fresh, true, []⟩ := by
        rw [deviceProbeConfiguration_eq, if_neg (not_not.mpr good), if_neg (by rw [allocated]; decide),
          if_neg (not_not.mpr whole), empty]
        rfl
      exact handled.reported 0 0 _ returned rfl rfl
    case chained =>
      intro received
      exact wellChained_of_parsed (handled.parsed received)
  · intro answered
    constructor
    case parsed =>
      intro received id
      exact (answered.chained received).parsed id
    case freed =>
      intro fuel retval probe returned failed
      rcases configuration_cases returned with ⟨bad, rfl⟩ | rfl | ⟨good, allocated, short, -⟩ | ⟨-, -, result⟩
      · exact ⟨rfl, answered.earlier.resolve_right bad⟩
      · exact ⟨rfl, rfl⟩
      · exact absurd (answered.transferred good allocated) short
      · exact result failed
    case reported =>
      intro fuel retval probe returned unprobed
      rcases configuration_cases returned with ⟨-, rfl⟩ | rfl | ⟨-, -, -, rfl⟩ | ⟨received, ended, -⟩
      · exact show (- EIO : Int) ≠ 0 by decide
      · exact show (- ENOMEM : Int) ≠ 0 by decide
      · exact show (- EIO : Int) ≠ 0 by decide
      · exact unprobed_interfaces (.inl (answered.interfaces received)) ended unprobed

end Configuration

/-- A descriptor without a length keeps the search at itself, and a second transfer that fails leaves its buffer. -/
theorem config_descriptor_without_length :
    let config : ℕ → UInt8 := fun address => [0, 2, 18, 0, 1].getD address 0
    let host : Host := ⟨⟨0x0424, 0x2512, 9, 0, 0⟩, [], fun _ _ => 0, fun _ _ _ => 0⟩
    (∀ fuel, deviceProbeInterface host config 0 fuel = none) ∧
      deviceProbeConfiguration host ⟨9, 9, 18, true, -5, config⟩ 0 none 0 = some ⟨- EIO, some .fresh, true, []⟩ ∧
      ¬Handled host ⟨9, 9, 18, true, 18, config⟩ none := by
  intro config host
  have round (fuel : ℕ) (reads : List ℕ) : probeInterfaceFrom host config 0 fuel 0 reads = none := by
    induction fuel generalizing reads with
    | zero => rfl
    | succ fuel ih => exact ih _
  refine ⟨fun fuel => round fuel _, rfl, fun handled => ?_⟩
  obtain ⟨fuel, probe, returned⟩ := (handled.parsed ⟨⟨rfl, rfl⟩, rfl, rfl⟩ 0).ends
  cases returned.symm.trans (round fuel _)

end Phabos.UsbHost
