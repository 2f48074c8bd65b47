import Phabos.Proof.Hashtable.FiniteMap

namespace Phabos.Hashtable
open Library Option
variable {K V : Type}

def freshSlots (ht : Hashtable K V) : Finset Nat :=
  (Finset.range ht.size).filter fun i =>
    (ht.table i).isUsed = false ∧ (ht.table i).isDeleted = false

variable {ht : Hashtable K V}

theorem mem_freshSlots {i : Nat} : i ∈ ht.freshSlots ↔ i < ht.size ∧ ht.Fresh i := by
  simp [freshSlots, Fresh]

/-- The add of a key finds a tombstone before the first fresh slot of its path. -/
def ReusesTombstone (ht : Hashtable K V) (key : K) : Prop :=
  ∃ steps < ht.size, (ht.table (ht.path key steps)).isDeleted = true ∧
    ∀ earlier < steps, (ht.table (ht.path key earlier)).isUsed = true

/-- The call leaves a slot that was never used: an add overwrites a key, resizes the table,
reuses a tombstone, or takes one of several fresh slots. -/
def LeavesFresh (ht : Hashtable K V) : Call K V → Prop
  | .add key _ => ht.Present key ∨ ht.size / 2 ≤ ht.count + 1 ∨ ht.ReusesTombstone key ∨
      2 ≤ ht.freshSlots.card
  | _ => True

theorem first_unused_unique {key : K} {first second : Nat}
    (unusedFirst : (ht.table (ht.path key first)).isUsed = false)
    (passedFirst : ∀ earlier < first, (ht.table (ht.path key earlier)).isUsed = true)
    (unusedSecond : (ht.table (ht.path key second)).isUsed = false)
    (passedSecond : ∀ earlier < second, (ht.table (ht.path key earlier)).isUsed = true) : first = second := by
  rcases Nat.lt_trichotomy first second with before | equal | after
  · rw [passedSecond first before] at unusedFirst
    exact absurd unusedFirst (by decide)
  · exact equal
  · rw [passedFirst second after] at unusedSecond
    exact absurd unusedSecond (by decide)

theorem hasFresh_store (wf : ht.WellFormed) (fresh : ht.HasFresh) {key : K} {i : Nat} (value : V)
    (place : ht.Placeable key i) (room : (ht.store i key value).count < ht.size / 2)
    (leaves : ht.LeavesFresh (.add key value)) : (ht.store i key value).HasFresh := by
  have elsewhere (j : Nat) (inside : j < ht.size) (freshSlot : ht.Fresh j) (apart : j ≠ i) :
      (ht.store i key value).HasFresh :=
    ⟨j, inside, by rw [Fresh, store_table_of_ne ht key value apart]; exact freshSlot⟩
  obtain ⟨j, inside, freshSlot⟩ := fresh
  by_cases apart : j ≠ i
  · exact elsewhere j inside freshSlot apart
  · have same : j = i := not_not.mp apart
    subst j
    have unused := freshSlot.1
    rcases place with stored | ⟨absent, _, steps, _, there, passed⟩
    · rw [stored.2.1] at unused
      exact absurd unused (by decide)
    rcases leaves with present | large | ⟨other, _, deleted, passedOther⟩ | several
    · exact absurd present absent
    · rw [store_count_of_unused unused] at room
      omega
    · have reusable : (ht.table (ht.path key other)).isUsed = false := by
        by_contra used
        rw [wf.exclusive _ (by simpa using used)] at deleted
        exact absurd deleted (by decide)
      have equal := first_unused_unique (there ▸ unused) passed reusable passedOther
      rw [← equal, there, freshSlot.2] at deleted
      exact absurd deleted (by decide)
    · obtain ⟨j, member, apart⟩ := Finset.exists_mem_ne (Nat.lt_of_succ_le several) i
      obtain ⟨inside, freshSlot⟩ := mem_freshSlots.mp member
      exact elsewhere j inside freshSlot apart

section Calls
variable [Inhabited K] [Inhabited V] [DecidableEq V]

/-- Every call returns for every key, present or absent. -/
structure Responsive (ht : Hashtable K V) : Prop where
  getNode : ∀ key findDeleted, ∃ i, ht.getNode key findDeleted = some i
  get : ∀ key, ∃ value, ht.get key = some value
  has : ∀ key, ∃ answer, ht.has key = some answer
  add : ∀ key value, ∃ next, ht.add key value = some next
  remove : ∀ key, ∃ next, ht.remove key = some next

/-- With a fresh slot every lookup returns. -/
theorem HasFresh.responsive (fresh : ht.HasFresh) (wf : ht.WellFormed) (load : ht.count < ht.size / 2) :
    ht.Responsive where
  getNode := fresh.getNode_returns
  get key := by
    obtain ⟨i, found⟩ := fresh.getNode_returns key false
    exact ⟨_, by rw [Hashtable.get, found, map_some]⟩
  has key := by
    obtain ⟨i, found⟩ := fresh.getNode_returns key false
    exact ⟨_, by rw [Hashtable.has, Hashtable.get, found, map_some, map_some]⟩
  add key value := by
    obtain ⟨i, found⟩ := fresh.findSlot_returns key
    obtain ⟨next, ran, _⟩ := wf.addAt load value found
    exact ⟨next, ran 0⟩
  remove key := by
    obtain ⟨i, found⟩ := fresh.getNode_returns key false
    exact ⟨_, by rw [Hashtable.remove, found, map_some]⟩

omit [Inhabited K] [Inhabited V] [DecidableEq V] in
theorem probe_hangs (positive : 0 < ht.size) (worn : ¬ ht.HasFresh) {key : K} (absent : ¬ ht.Present key) (fuel : Nat) :
    ht.probeFor key false fuel = none := by
  rw [eq_none_iff_forall_ne_some]
  intro i found
  obtain ⟨inside, stopped⟩ := probe_stop (hash_lt positive key) found
  obtain ⟨sameKey, undeleted⟩ := (stops_false_iff ht key i).mp stopped
  by_cases used : (ht.table i).isUsed = true
  · exact absent ⟨i, inside, used, sameKey used⟩
  · exact worn ⟨i, inside, by simpa using used, undeleted⟩

/-- A call that leaves a fresh slot returns. -/
theorem step_leavesFresh (wf : ht.WellFormed) (load : ht.count < ht.size / 2) (fresh : ht.HasFresh) (call : Call K V)
    (leaves : ht.LeavesFresh call) :
    ∃ next, ht.step call = some next ∧ next.WellFormed ∧ next.count < next.size / 2 ∧
      next.HasFresh := by
  cases call with
  | add key value =>
    obtain ⟨i, found⟩ := fresh.findSlot_returns key
    obtain ⟨next, ran, wellFormed, loadNext, _, shape, _⟩ := wf.addAt load value found
    refine ⟨next, ran 0, wellFormed, loadNext, ?_⟩
    rcases shape with ⟨rfl, room⟩ | clean
    · exact hasFresh_store wf fresh value (wf.findSlot_placeable found) room leaves
    · exact wellFormed.hasFresh_of_noTombstone clean (by omega)
  | remove key =>
    obtain ⟨i, found⟩ := fresh.getNode_returns key false
    refine ⟨if (ht.table i).isUsed then ht.discard i else ht, ?_, ?_⟩
    · rw [Hashtable.step, Hashtable.remove, found, map_some]
    rcases wf.getNode_false found with stored | ⟨_, unused, _⟩
    · rw [if_pos stored.2.1]
      refine ⟨wf.discard stored, ?_, ?_⟩
      · change ht.count - 1 < ht.size / 2
        omega
      · obtain ⟨j, inside, freshSlot⟩ := fresh
        refine ⟨j, inside, ?_⟩
        have apart : j ≠ i := by
          rintro rfl
          have used := stored.2.1
          rw [freshSlot.1] at used
          exact absurd used (by decide)
        rw [Fresh, discard_table_of_ne ht apart]
        exact freshSlot
    · rw [if_neg (by simp [unused.1])]
      exact ⟨wf, load, fresh⟩
  | get key =>
    obtain ⟨i, found⟩ := fresh.getNode_returns key false
    exact ⟨ht, by rw [Hashtable.step, Hashtable.get, found]; rfl, wf, load, fresh⟩
  | has key =>
    obtain ⟨i, found⟩ := fresh.getNode_returns key false
    exact ⟨ht, by rw [Hashtable.step, Hashtable.has, Hashtable.get, found]; rfl, wf, load, fresh⟩

/-- In every run whose calls all leave a fresh slot, every call returns, and every further call
on the table that is reached returns too. -/
theorem hashtable_probing_terminates (keys : KeyClass K) (calls : List (Call K V))
    (leaves : Guarded Hashtable.step LeavesFresh (create keys) calls) :
    ∃ ht, run Hashtable.step (create keys) calls = some ht ∧ ht.Responsive := by
  have wf : (create keys : Hashtable K V).WellFormed := (refines_create keys).wellFormed
  have start : (create keys : Hashtable K V).HasFresh := ⟨0, wf.positive, rfl, rfl⟩
  obtain ⟨ht, ran, wellFormed, load, fresh⟩ := run_total_of_guarded Hashtable.step LeavesFresh
    (fun ht => ht.WellFormed ∧ ht.count < ht.size / 2 ∧ ht.HasFresh)
    (fun ht call holds guarded => step_leavesFresh holds.1 holds.2.1 holds.2.2 call guarded)
    (create keys) calls ⟨wf, (refines_create keys).load, start⟩ leaves
  exact ⟨ht, ran, fresh.responsive wellFormed load⟩

end Calls

/-- An add, a remove and an add that reuses the tombstone meet the condition. -/
theorem hashtable_probing_terminates_reuse :
    ∃ ht : Hashtable (BitVec 32) Nat,
      run Hashtable.step (create uintKeys) [.add 1 10, .remove 1, .add 9 20] = some ht ∧
      ht.Responsive := by
  refine hashtable_probing_terminates uintKeys _ (Guarded.cons ?_ rfl (Guarded.cons trivial rfl
    (Guarded.cons ?_ rfl trivial)))
  · exact .inr (.inr (.inr (by decide)))
  · exact .inr (.inr (.inl ⟨0, by decide, rfl, by simp⟩))

/-- These calls turn each of the eight slots of a new table into a tombstone. -/
def wearOut : List (Call (BitVec 32) Nat) :=
  (List.range 8).flatMap fun key => [.add (BitVec.ofNat 32 key) 1, .remove (BitVec.ofNat 32 key)]

/-- After the eight pairs of calls the probe for key 0 never stops. -/
theorem hashtable_probing_hangs :
    ∃ ht : Hashtable (BitVec 32) Nat,
      run Hashtable.step (create uintKeys) wearOut = some ht ∧
      (∀ fuel, ht.probeFor 0 false fuel = none) ∧ ht.get 0 = none ∧ ¬ ht.Responsive := by
  have ran : (run Hashtable.step (create uintKeys) wearOut).isSome = true := by decide
  obtain ⟨ht, ran⟩ := isSome_iff_exists.mp ran
  have tombstones : ((run Hashtable.step (create uintKeys) wearOut).map fun ht =>
      (ht.size, (List.range 8).all fun i => !(ht.table i).isUsed && (ht.table i).isDeleted)) =
      some (8, true) := by decide
  rw [ran, map_some, some.injEq, Prod.mk.injEq, List.all_eq_true] at tombstones
  obtain ⟨size, tombstones⟩ := tombstones
  have slot (i : Nat) (inside : i < ht.size) :
      (ht.table i).isUsed = false ∧ (ht.table i).isDeleted = true := by
    simpa using tombstones i (List.mem_range.mpr (size ▸ inside))
  have hangs : ∀ fuel, ht.probeFor 0 false fuel = none := by
    apply probe_hangs (by omega)
    · rintro ⟨i, inside, _, undeleted⟩
      rw [(slot i inside).2] at undeleted
      exact absurd undeleted (by decide)
    · rintro ⟨i, inside, used, _⟩
      rw [(slot i inside).1] at used
      exact absurd used (by decide)
  refine ⟨ht, ran, hangs, by rw [Hashtable.get, getNode, hangs, map_none], fun responsive => ?_⟩
  obtain ⟨i, found⟩ := responsive.getNode 0 false
  rw [getNode, hangs] at found
  exact absurd found (by simp)

end Phabos.Hashtable
