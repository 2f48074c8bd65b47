import Phabos.Construction.Lib.Hashtable
import Mathlib.Data.Finset.Card

namespace Phabos.Hashtable
open Library
variable {K V : Type}

/-- A fresh slot was never used since its table was allocated. -/
def Fresh (ht : Hashtable K V) (i : Nat) : Prop :=
  (ht.table i).isUsed = false ∧ (ht.table i).isDeleted = false

def HasFresh (ht : Hashtable K V) : Prop := ∃ i < ht.size, ht.Fresh i

/-- The slot holds the key. -/
def Stored (ht : Hashtable K V) (key : K) (i : Nat) : Prop :=
  i < ht.size ∧ (ht.table i).isUsed = true ∧ (ht.table i).key = key

def Present (ht : Hashtable K V) (key : K) : Prop := ∃ i, ht.Stored key i

/-- The table maps the key to the value. -/
def Holds (ht : Hashtable K V) (key : K) (value : V) : Prop :=
  ∃ i, ht.Stored key i ∧ (ht.table i).value = value

/-- This slot is the `steps`-th one that a probe for the key visits. -/
def path (ht : Hashtable K V) (key : K) (steps : Nat) : Nat :=
  ringSlot ht.size (ht.keys.hash ht.size key) steps

/-- No fresh slot comes before the slot on the probe path of the key. -/
def Chained (ht : Hashtable K V) (key : K) (i : Nat) : Prop :=
  ∃ steps < ht.size, ht.path key steps = i ∧ ∀ earlier < steps, ¬ ht.Fresh (ht.path key earlier)

def usedSlots (ht : Hashtable K V) : Finset Nat :=
  (Finset.range ht.size).filter fun i => (ht.table i).isUsed = true

/-- Every stored key can be reached by its probe, has one slot, and is counted once. -/
structure WellFormed (ht : Hashtable K V) : Prop where
  positive : 0 < ht.size
  exclusive : ∀ i, (ht.table i).isUsed = true → (ht.table i).isDeleted = false
  chained : ∀ key i, ht.Stored key i → ht.Chained key i
  unique : ∀ key i j, ht.Stored key i → ht.Stored key j → i = j
  counted : ht.count = ht.usedSlots.card

variable {ht : Hashtable K V}

variable {i : Nat}

theorem mem_usedSlots :
    i ∈ ht.usedSlots ↔ i < ht.size ∧ (ht.table i).isUsed = true := by
  simp [usedSlots]

theorem hash_lt (positive : 0 < ht.size) (key : K) :
    ht.keys.hash ht.size key < ht.size := ht.keys.hash_lt _ key positive

theorem stops_false_iff (ht : Hashtable K V) (key : K) (i : Nat) :
    ht.stops key false i = true ↔
      ((ht.table i).isUsed = true → (ht.table i).key = key) ∧ (ht.table i).isDeleted = false := by
  have separates := ht.keys.compare_eq_zero (ht.table i).key key
  simp only [stops, Bool.not_eq_true', Bool.or_eq_false_iff, Bool.and_eq_false_iff, bne_eq_false_iff_eq,
    separates, Bool.not_false, Bool.and_true]
  cases (ht.table i).isUsed <;> simp

theorem stops_true_iff (ht : Hashtable K V) (key : K) (i : Nat) :
    ht.stops key true i = true ↔ ((ht.table i).isUsed = true → (ht.table i).key = key) := by
  have separates := ht.keys.compare_eq_zero (ht.table i).key key
  simp only [stops, Bool.not_eq_true', Bool.or_eq_false_iff, Bool.and_eq_false_iff, bne_eq_false_iff_eq,
    separates, Bool.not_true, Bool.and_false, and_true]
  cases (ht.table i).isUsed <;> simp

theorem getNode_eq_some_iff (positive : 0 < ht.size) (key : K) (findDeleted : Bool) (i : Nat) :
    ht.getNode key findDeleted = some i ↔
      ∃ steps < ht.size, ht.path key steps = i ∧ ht.stops key findDeleted i = true ∧
        ∀ earlier < steps, ht.stops key findDeleted (ht.path key earlier) = false :=
  probe_eq_some_iff (hash_lt positive key)

theorem path_lt (positive : 0 < ht.size) (key : K) (steps : Nat) :
    ht.path key steps < ht.size := ringSlot_lt (hash_lt positive key) steps

theorem getNode_returns_iff (positive : 0 < ht.size) (key : K) (findDeleted : Bool) :
    (∃ i, ht.getNode key findDeleted = some i) ↔
      ∃ i < ht.size, ht.stops key findDeleted i = true :=
  probe_isSome_iff (hash_lt positive key)

theorem HasFresh.getNode_returns (fresh : ht.HasFresh) (key : K)
    (findDeleted : Bool) : ∃ i, ht.getNode key findDeleted = some i := by
  obtain ⟨i, inside, unused, undeleted⟩ := fresh
  apply (getNode_returns_iff (Nat.zero_lt_of_lt inside) key findDeleted).mpr
  exact ⟨i, inside, by simp [stops, unused, undeleted]⟩

variable {key : K}

theorem WellFormed.stored_stops (wf : ht.WellFormed) (stored : ht.Stored key i) : ht.stops key false i = true :=
  (stops_false_iff ht key i).mpr ⟨fun _ => stored.2.2, wf.exclusive i stored.2.1⟩

theorem WellFormed.getNode_false (wf : ht.WellFormed) (found : ht.getNode key false = some i) :
    ht.Stored key i ∨ i < ht.size ∧ ht.Fresh i ∧ ¬ ht.Present key := by
  obtain ⟨steps, _, same, stopped, passed⟩ := (getNode_eq_some_iff wf.positive key false i).mp found
  have inside : i < ht.size := same ▸ path_lt wf.positive key steps
  obtain ⟨sameKey, undeleted⟩ := (stops_false_iff ht key i).mp stopped
  by_cases used : (ht.table i).isUsed = true
  · exact .inl ⟨inside, used, sameKey used⟩
  · have fresh : ht.Fresh i := ⟨by simpa using used, undeleted⟩
    refine .inr ⟨inside, fresh, ?_⟩
    rintro ⟨j, stored⟩
    obtain ⟨distance, _, there, chain⟩ := wf.chained key j stored
    rcases Nat.lt_trichotomy steps distance with before | equal | after
    · exact chain steps before (same ▸ fresh)
    · rw [← there, ← equal, same] at stored
      exact used stored.2.1
    · have stop := wf.stored_stops stored
      rw [← there, passed distance after] at stop
      exact absurd stop (by decide)

theorem WellFormed.getNode_stored (wf : ht.WellFormed) (stored : ht.Stored key i) : ht.getNode key false = some i := by
  obtain ⟨j, found⟩ := (getNode_returns_iff wf.positive key false).mpr
    ⟨i, stored.1, wf.stored_stops stored⟩
  rcases wf.getNode_false found with other | absent
  · rw [found, wf.unique key j i other stored]
  · exact absurd ⟨i, stored⟩ absent.2.2

/-- The slot is where `hashtable_add` writes the key. -/
def Placeable (ht : Hashtable K V) (key : K) (i : Nat) : Prop :=
  ht.Stored key i ∨
    (¬ ht.Present key ∧ (ht.table i).isUsed = false ∧
      ∃ steps < ht.size, ht.path key steps = i ∧
        ∀ earlier < steps, (ht.table (ht.path key earlier)).isUsed = true)

theorem WellFormed.placeable_lt (wf : ht.WellFormed) (place : ht.Placeable key i) : i < ht.size := by
  rcases place with stored | ⟨_, _, steps, _, same, _⟩
  · exact stored.1
  · exact same ▸ path_lt wf.positive key steps

theorem WellFormed.findSlot_placeable (wf : ht.WellFormed)
    (found : ht.findSlot key = some i) : ht.Placeable key i := by
  obtain ⟨node, first, second⟩ := Option.bind_eq_some_iff.mp found
  rcases wf.getNode_false first with stored | ⟨_, fresh, absent⟩
  · rw [if_pos stored.2.1, Option.some.injEq] at second
    exact .inl (second ▸ stored)
  · rw [if_neg (by simp [fresh.1])] at second
    obtain ⟨steps, bound, same, stopped, passed⟩ :=
      (getNode_eq_some_iff wf.positive key true i).mp second
    have inside : i < ht.size := same ▸ path_lt wf.positive key steps
    refine .inr ⟨absent, ?_, steps, bound, same, ?_⟩
    · by_contra used
      have used : (ht.table i).isUsed = true := by simpa using used
      exact absent ⟨i, inside, used, (stops_true_iff ht key i).mp stopped used⟩
    · intro earlier small
      have running := passed earlier small
      by_contra unused
      have stop := (stops_true_iff ht key (ht.path key earlier)).mpr fun used => absurd used unused
      rw [running] at stop
      exact absurd stop (by decide)

theorem HasFresh.findSlot_returns (fresh : ht.HasFresh) (key : K) :
    ∃ i, ht.findSlot key = some i := by
  obtain ⟨node, first⟩ := fresh.getNode_returns key false
  obtain ⟨slot, second⟩ := fresh.getNode_returns key true
  by_cases used : (ht.table node).isUsed = true
  · exact ⟨node, by simp [findSlot, first, used]⟩
  · exact ⟨slot, by simp [findSlot, first, used, second]⟩

section
variable (ht : Hashtable K V)

theorem store_table_self (i : Nat) (key : K) (value : V) :
    (ht.store i key value).table i = ⟨key, value, true, false⟩ := by
  simp [store]

theorem store_table_of_ne {i j : Nat} (key : K) (value : V) (different : j ≠ i) :
    (ht.store i key value).table j = ht.table j := by
  simp [store, different]

theorem not_fresh_store (i : Nat) (key : K) (value : V) (j : Nat) (fresh : (ht.store i key value).Fresh j) :
    ht.Fresh j := by
  by_cases same : j = i
  · subst j
    simp [Fresh, store_table_self] at fresh
  · rwa [Fresh, store_table_of_ne ht key value same] at fresh

theorem stored_store_iff (inside : i < ht.size) (key query : K) (value : V) (j : Nat) :
    (ht.store i key value).Stored query j ↔
      if j = i then query = key else ht.Stored query j := by
  by_cases same : j = i
  · subst j
    simp only [Stored, store_table_self, if_true, true_and]
    exact ⟨fun stored => stored.2.symm, fun equal => ⟨inside, equal.symm⟩⟩
  · simp only [Stored, store_table_of_ne ht key value same, if_neg same]
    rfl

theorem usedSlots_store (inside : i < ht.size) (key : K) (value : V) :
    (ht.store i key value).usedSlots = insert i ht.usedSlots := by
  ext j
  rw [Finset.mem_insert, mem_usedSlots, mem_usedSlots]
  by_cases same : j = i
  · subst j
    simp only [store_table_self, true_or, and_true, iff_true]
    exact inside
  · rw [store_table_of_ne ht key value same]
    simp only [same, false_or]
    rfl

end

theorem WellFormed.placeable_only (wf : ht.WellFormed) {i j : Nat}
    (place : ht.Placeable key i) (stored : ht.Stored key j) : j = i := by
  rcases place with here | ⟨absent, _⟩
  · exact wf.unique key j i stored here
  · exact absurd ⟨j, stored⟩ absent

theorem WellFormed.store (wf : ht.WellFormed)
    (place : ht.Placeable key i) (value : V) : (ht.store i key value).WellFormed := by
  have inside := wf.placeable_lt place
  refine ⟨wf.positive, ?_, ?_, ?_, ?_⟩
  · intro j used
    by_cases same : j = i
    · rw [same, store_table_self]
    · rw [store_table_of_ne ht key value same] at used ⊢
      exact wf.exclusive j used
  · intro query j stored
    have chain : ht.Chained query j := by
      rw [stored_store_iff ht inside] at stored
      by_cases same : j = i
      · rw [if_pos same] at stored
        subst j query
        rcases place with here | ⟨_, _, steps, bound, same, passed⟩
        · exact wf.chained key i here
        · exact ⟨steps, bound, same, fun earlier small fresh => by
            have used := passed earlier small
            rw [fresh.1] at used
            exact absurd used (by decide)⟩
      · rw [if_neg same] at stored
        exact wf.chained query j stored
    obtain ⟨steps, bound, same, passed⟩ := chain
    exact ⟨steps, bound, same, fun earlier small fresh =>
      passed earlier small (not_fresh_store ht i key value _ fresh)⟩
  · intro query j l first second
    rw [stored_store_iff ht inside] at first second
    by_cases sameFirst : j = i <;> by_cases sameSecond : l = i
    · rw [sameFirst, sameSecond]
    · rw [if_pos sameFirst] at first
      rw [if_neg sameSecond, first] at second
      exact absurd (wf.placeable_only place second) sameSecond
    · rw [if_pos sameSecond] at second
      rw [if_neg sameFirst, second] at first
      exact absurd (wf.placeable_only place first) sameFirst
    · rw [if_neg sameFirst] at first
      rw [if_neg sameSecond] at second
      exact wf.unique query j l first second
  · rw [usedSlots_store ht inside]
    by_cases used : (ht.table i).isUsed = true
    · rw [Finset.insert_eq_of_mem (mem_usedSlots.mpr ⟨inside, used⟩), ← wf.counted]
      simp [Hashtable.store, used]
    · rw [Finset.card_insert_of_notMem (fun member => used (mem_usedSlots.mp member).2),
        ← wf.counted]
      simp [Hashtable.store, used]

theorem WellFormed.holds_store (wf : ht.WellFormed) (place : ht.Placeable key i) (value : V) (query : K) (answer : V) :
    (ht.store i key value).Holds query answer ↔
      query = key ∧ answer = value ∨ query ≠ key ∧ ht.Holds query answer := by
  have inside := wf.placeable_lt place
  constructor
  · rintro ⟨j, stored, equal⟩
    rw [stored_store_iff ht inside] at stored
    by_cases same : j = i
    · rw [if_pos same] at stored
      rw [same, store_table_self] at equal
      exact .inl ⟨stored, equal.symm⟩
    · rw [if_neg same] at stored
      rw [store_table_of_ne ht key value same] at equal
      refine .inr ⟨?_, j, stored, equal⟩
      rintro rfl
      exact same (wf.placeable_only place stored)
  · rintro (⟨rfl, rfl⟩ | ⟨different, j, stored, equal⟩)
    · exact ⟨i, (stored_store_iff ht inside ..).mpr (by simp), by rw [store_table_self]⟩
    · have other : j ≠ i := by
        rintro rfl
        rcases place with here | ⟨_, unused, _⟩
        · exact different (stored.2.2.symm.trans here.2.2)
        · rw [stored.2.1] at unused
          exact absurd unused (by decide)
      exact ⟨j, (stored_store_iff ht inside ..).mpr (by rw [if_neg other]; exact stored),
        by rw [store_table_of_ne ht key value other]; exact equal⟩

theorem Holds.present {value : V} (holds : ht.Holds key value) : ht.Present key := ⟨holds.choose, holds.choose_spec.1⟩

variable [Inhabited V] {ht : Hashtable K V}

theorem WellFormed.get_eq_some (wf : ht.WellFormed) {key : K} {value : V} (returned : ht.get key = some value) :
    ht.Holds key value ∨ ¬ ht.Present key ∧ value = default := by
  obtain ⟨node, found, equal⟩ := Option.map_eq_some_iff.mp returned
  rcases wf.getNode_false found with stored | ⟨_, fresh, absent⟩
  · rw [if_pos stored.2.1] at equal
    exact .inl ⟨node, stored, equal⟩
  · rw [if_neg (by simp [fresh.1])] at equal
    exact .inr ⟨absent, equal.symm⟩

variable [Inhabited K]

theorem discard_table_self (ht : Hashtable K V) (i : Nat) :
    (ht.discard i).table i = ⟨default, default, false, true⟩ := by
  simp [discard]

theorem discard_table_of_ne (ht : Hashtable K V) {i j : Nat} (different : j ≠ i) :
    (ht.discard i).table j = ht.table j := by
  simp [discard, different]

theorem stored_discard_iff (ht : Hashtable K V) (i : Nat) (query : K) (j : Nat) :
    (ht.discard i).Stored query j ↔ j ≠ i ∧ ht.Stored query j := by
  by_cases same : j = i
  · subst j
    simp [Stored, discard_table_self]
  · simp only [Stored, discard_table_of_ne ht same, ne_eq, same, not_false_eq_true, true_and]
    rfl

theorem fresh_discard {i j : Nat} (fresh : (ht.discard i).Fresh j) : ht.Fresh j := by
  by_cases same : j = i
  · subst j
    simp [Fresh, discard_table_self] at fresh
  · rwa [Fresh, discard_table_of_ne ht same] at fresh

theorem WellFormed.discard (wf : ht.WellFormed) {key : K} {i : Nat} (stored : ht.Stored key i) :
    (ht.discard i).WellFormed := by
  refine ⟨wf.positive, ?_, ?_, ?_, ?_⟩
  · intro j used
    by_cases same : j = i
    · rw [same, discard_table_self] at used
      exact absurd used Bool.false_ne_true
    · rw [discard_table_of_ne ht same] at used ⊢
      exact wf.exclusive j used
  · intro query j other
    obtain ⟨steps, bound, same, passed⟩ :=
      wf.chained query j ((stored_discard_iff ht i query j).mp other).2
    exact ⟨steps, bound, same, fun earlier small fresh => passed earlier small (fresh_discard fresh)⟩
  · intro query j l first second
    exact wf.unique query j l ((stored_discard_iff ht i query j).mp first).2
      ((stored_discard_iff ht i query l).mp second).2
  · have slots : (ht.discard i).usedSlots = ht.usedSlots.erase i := by
      ext j
      rw [Finset.mem_erase, mem_usedSlots, mem_usedSlots]
      by_cases same : j = i
      · subst j
        simp [discard_table_self]
      · rw [discard_table_of_ne ht same]
        simp only [ne_eq, same, not_false_eq_true, true_and]
        rfl
    rw [slots, Finset.card_erase_of_mem (mem_usedSlots.mpr ⟨stored.1, stored.2.1⟩), ← wf.counted]
    rfl

theorem WellFormed.holds_discard (wf : ht.WellFormed) {key : K} {i : Nat} (stored : ht.Stored key i) (query : K)
    (answer : V) : (ht.discard i).Holds query answer ↔ query ≠ key ∧ ht.Holds query answer := by
  constructor
  · rintro ⟨j, other, equal⟩
    obtain ⟨different, other⟩ := (stored_discard_iff ht i query j).mp other
    rw [discard_table_of_ne ht different] at equal
    refine ⟨?_, j, other, equal⟩
    rintro rfl
    exact different (wf.unique query j i other stored)
  · rintro ⟨different, j, other, equal⟩
    have apart : j ≠ i := by
      rintro rfl
      exact different (other.2.2.symm.trans stored.2.2)
    exact ⟨j, (stored_discard_iff ht i query j).mpr ⟨apart, other⟩,
      by rw [discard_table_of_ne ht apart]; exact equal⟩

theorem wellFormed_cleared (size : Nat) (positive : 0 < size) (keys : KeyClass K) :
    (⟨fun _ => clearedNode, size, 0, keys⟩ : Hashtable K V).WellFormed where
  positive := positive
  exclusive i used := by simp [clearedNode] at used
  chained key i stored := by simp [Stored, clearedNode] at stored
  unique key i j stored := by simp [Stored, clearedNode] at stored
  counted := by simp [usedSlots, clearedNode]

end Phabos.Hashtable
