import Mathlib.Data.Set.Card
import Phabos.Proof.Hashtable.ProbeChain

namespace Phabos.Hashtable
open Library Option Function
variable {K V : Type}

/-- Every slot of the table is used or fresh. -/
def NoTombstone (ht : Hashtable K V) : Prop := ∀ i, (ht.table i).isDeleted = false

variable {ht : Hashtable K V}

theorem NoTombstone.store (clean : ht.NoTombstone) (i : Nat) (key : K)
    (value : V) : (ht.store i key value).NoTombstone := by
  intro j
  by_cases same : j = i
  · rw [same, store_table_self]
  · rw [store_table_of_ne ht key value same]
    exact clean j

theorem WellFormed.hasFresh_of_noTombstone (wf : ht.WellFormed)
    (clean : ht.NoTombstone) (room : ht.count < ht.size) : ht.HasFresh := by
  by_contra full
  have every : Finset.range ht.size ⊆ ht.usedSlots := by
    intro i member
    have inside := Finset.mem_range.mp member
    by_contra unused
    refine full ⟨i, inside, ?_, clean i⟩
    simpa using fun used => unused (mem_usedSlots.mpr ⟨inside, used⟩)
  have bound := Finset.card_le_card every
  rw [Finset.card_range, ← wf.counted] at bound
  omega

theorem store_count_of_unused {i : Nat} (unused : (ht.table i).isUsed = false)
    (key : K) (value : V) : (ht.store i key value).count = ht.count + 1 := by
  simp [store, unused]

theorem store_count_le (ht : Hashtable K V) (i : Nat) (key : K) (value : V) :
    (ht.store i key value).count ≤ ht.count + 1 := by
  simp only [store]
  split <;> omega

theorem placeable_unused {key : K} {i : Nat} (place : ht.Placeable key i)
    (absent : ¬ ht.Present key) : (ht.table i).isUsed = false := by
  rcases place with stored | ⟨_, unused, _⟩
  · exact absurd ⟨i, stored⟩ absent
  · exact unused

/-- This is the state of a resize after it entered the first `done` slots of the old table. -/
structure Rehashed (old next : Hashtable K V) (size done : Nat) : Prop where
  wellFormed : next.WellFormed
  clean : next.NoTombstone
  size_eq : next.size = size
  keys_eq : next.keys = old.keys
  count_eq : next.count = ((Finset.range done).filter fun i => (old.table i).isUsed = true).card
  holds_iff : ∀ key value, next.Holds key value ↔
    ∃ i < done, (old.table i).isUsed = true ∧ (old.table i).key = key ∧ (old.table i).value = value

section Resize
variable [Inhabited K] [Inhabited V]

theorem rehashed_zero (old : Hashtable K V) (size : Nat) (positive : 0 < size) :
    Rehashed old ⟨fun _ => clearedNode, size, 0, old.keys⟩ size 0 where
  wellFormed := wellFormed_cleared size positive old.keys
  clean _ := rfl
  size_eq := rfl
  keys_eq := rfl
  count_eq := rfl
  holds_iff key value := by
    constructor
    · rintro ⟨i, stored, _⟩
      simp [Stored, clearedNode] at stored
    · rintro ⟨i, inside, _⟩
      omega

theorem addAt_eq_store (depth : Nat) (ht : Hashtable K V) {key : K} {i : Nat} (value : V)
    (found : ht.findSlot key = some i) (room : ht.count + 1 < ht.size / 2) :
    addAt (depth + 1) ht key value = some (ht.store i key value) := by
  have small := store_count_le ht i key value
  rw [addAt, found, bind_some]
  dsimp only
  rw [if_neg]
  change ¬ ht.size / 2 ≤ _
  omega

theorem Rehashed.step {old next : Hashtable K V} {size done : Nat}
    (rehashed : Rehashed old next size done) (wf : old.WellFormed) (inside : done < old.size)
    (used : (old.table done).isUsed = true) (room : old.count < size / 2) :
    ∃ i, (∀ depth, addAt (depth + 1) next (old.table done).key (old.table done).value =
        some (next.store i (old.table done).key (old.table done).value)) ∧
      Rehashed old (next.store i (old.table done).key (old.table done).value) size (done + 1) := by
  have absent : ¬ next.Present (old.table done).key := by
    rintro ⟨j, stored⟩
    obtain ⟨i, before, usedOld, sameKey, _⟩ :=
      (rehashed.holds_iff _ (next.table j).value).mp ⟨j, stored, rfl⟩
    have same := wf.unique (old.table done).key i done ⟨by omega, usedOld, sameKey⟩
      ⟨inside, used, rfl⟩
    omega
  have split : (Finset.range (done + 1)).filter (fun i => (old.table i).isUsed = true) =
      insert done ((Finset.range done).filter fun i => (old.table i).isUsed = true) := by
    rw [Finset.range_add_one, Finset.filter_insert, if_pos used]
  have grown : next.count + 1 =
      ((Finset.range (done + 1)).filter fun i => (old.table i).isUsed = true).card := by
    rw [split, Finset.card_insert_of_notMem (by simp), rehashed.count_eq]
  have bounded : next.count + 1 ≤ old.count := by
    rw [grown, wf.counted]
    apply Finset.card_le_card
    intro i member
    obtain ⟨small, usedOld⟩ := Finset.mem_filter.mp member
    exact mem_usedSlots.mpr ⟨by have := Finset.mem_range.mp small; omega, usedOld⟩
  have sized := rehashed.size_eq
  obtain ⟨i, found⟩ := (rehashed.wellFormed.hasFresh_of_noTombstone rehashed.clean
    (by omega)).findSlot_returns (old.table done).key
  have place := rehashed.wellFormed.findSlot_placeable found
  have unused := placeable_unused place absent
  refine ⟨i, fun depth => addAt_eq_store depth next _ found (by omega), ?_⟩
  refine ⟨rehashed.wellFormed.store place _, rehashed.clean.store i _ _, sized, rehashed.keys_eq,
    ?_, ?_⟩
  · rw [store_count_of_unused unused, grown]
  · intro key value
    rw [rehashed.wellFormed.holds_store place]
    constructor
    · rintro (⟨sameKey, sameValue⟩ | ⟨_, holds⟩)
      · exact ⟨done, by omega, used, sameKey.symm, sameValue.symm⟩
      · obtain ⟨j, before, rest⟩ := (rehashed.holds_iff key value).mp holds
        exact ⟨j, by omega, rest⟩
    · rintro ⟨j, before, usedOld, sameKey, sameValue⟩
      by_cases last : j = done
      · subst last
        exact .inl ⟨sameKey.symm, sameValue.symm⟩
      · have holds := (rehashed.holds_iff key value).mpr ⟨j, by omega, usedOld, sameKey, sameValue⟩
        refine .inr ⟨?_, holds⟩
        rintro rfl
        exact absent holds.present

theorem rehashed_loop {old : Hashtable K V} (wf : old.WellFormed) {size : Nat}
    (room : old.count < size / 2) (done : Nat) (inside : done ≤ old.size) :
    ∃ next, (∀ depth, (List.range done).foldlM
        (fun next i => if (old.table i).isUsed then
            addAt (depth + 1) next (old.table i).key (old.table i).value else some next)
        { old with table := fun _ => clearedNode, size := size, count := 0 } = some next) ∧
      Rehashed old next size done := by
  induction done with
  | zero => exact ⟨_, fun _ => rfl, rehashed_zero old size (by omega)⟩
  | succ done ih =>
    obtain ⟨next, ran, rehashed⟩ := ih (by omega)
    simp only [List.range_succ, List.foldlM_append, ran]
    by_cases used : (old.table done).isUsed = true
    · obtain ⟨i, added, stepped⟩ := rehashed.step wf inside used room
      exact ⟨_, fun depth => by simp [used, added depth], stepped⟩
    · refine ⟨next, by simp [used], rehashed.wellFormed, rehashed.clean, rehashed.size_eq,
        rehashed.keys_eq, ?_, ?_⟩
      · rw [Finset.range_add_one, Finset.filter_insert, if_neg used, rehashed.count_eq]
      · intro key value
        rw [rehashed.holds_iff]
        constructor
        · rintro ⟨j, before, rest⟩
          exact ⟨j, by omega, rest⟩
        · rintro ⟨j, before, usedOld, rest⟩
          have apart : j ≠ done := by
            rintro rfl
            exact used usedOld
          exact ⟨j, by omega, usedOld, rest⟩

theorem WellFormed.resizeWith {ht : Hashtable K V} (wf : ht.WellFormed) (size : Nat) (room : ht.count < size / 2) :
    ∃ next, (∀ depth, Hashtable.resizeWith (addAt (depth + 1)) ht size = some next) ∧ next.WellFormed ∧
      next.NoTombstone ∧ next.size = size ∧ next.keys = ht.keys ∧ next.count = ht.count ∧
      ∀ key value, next.Holds key value ↔ ht.Holds key value := by
  obtain ⟨next, ran, rehashed⟩ := rehashed_loop wf room ht.size (Nat.le_refl _)
  refine ⟨next, ran, rehashed.wellFormed, rehashed.clean, rehashed.size_eq, rehashed.keys_eq, ?_, ?_⟩
  · rw [rehashed.count_eq, wf.counted]
    rfl
  · intro key value
    rw [rehashed.holds_iff]
    constructor
    · rintro ⟨i, inside, used, sameKey, sameValue⟩
      exact ⟨i, ⟨inside, used, sameKey⟩, sameValue⟩
    · rintro ⟨i, ⟨inside, used, sameKey⟩, sameValue⟩
      exact ⟨i, inside, used, sameKey, sameValue⟩

theorem WellFormed.addAt {ht : Hashtable K V} (wf : ht.WellFormed) (load : ht.count < ht.size / 2)
    {key : K} {i : Nat} (value : V) (found : ht.findSlot key = some i) :
    ∃ next, (∀ depth, Hashtable.addAt (depth + 2) ht key value = some next) ∧ next.WellFormed ∧
      next.count < next.size / 2 ∧ next.keys = ht.keys ∧
      (next = ht.store i key value ∧ (ht.store i key value).count < ht.size / 2 ∨
        next.NoTombstone) ∧
      ∀ query answer, next.Holds query answer ↔
        query = key ∧ answer = value ∨ query ≠ key ∧ ht.Holds query answer := by
  have place := wf.findSlot_placeable found
  have stored := wf.store place value
  have counted := store_count_le ht i key value
  have sized : (ht.store i key value).size = ht.size := rfl
  simp only [Hashtable.addAt, found, bind_some]
  by_cases full : (ht.store i key value).size / 2 ≤ (ht.store i key value).count
  · simp only [if_pos full]
    obtain ⟨next, ran, wellFormed, clean, size_eq, keys_eq, count_eq, holds_iff⟩ :=
      stored.resizeWith ((ht.store i key value).size * 2) (by omega)
    refine ⟨next, ran, wellFormed, by omega, keys_eq, .inr clean, fun query answer => ?_⟩
    rw [holds_iff, wf.holds_store place]
  · simp only [if_neg full]
    exact ⟨_, fun _ => rfl, stored, by omega, rfl, .inl ⟨rfl, by omega⟩, wf.holds_store place value⟩

end Resize

variable {K V : Type} [DecidableEq K]

/-- A finite map keeps the last value that was added for each key and not removed since. -/
def specStep (map : K → Option V) : Call K V → K → Option V
  | .add key value => update map key (some value)
  | .remove key => update map key none
  | .get _ => map
  | .has _ => map

/-- The map that a history of calls leaves behind starts from the empty map. -/
def specOf (calls : List (Call K V)) : K → Option V := calls.foldl specStep fun _ => none

/-- The table refines the map and keeps the load that `hashtable_add` maintains. -/
structure Refines (ht : Hashtable K V) (map : K → Option V) : Prop where
  wellFormed : ht.WellFormed
  load : ht.count < ht.size / 2
  holds_iff : ∀ key value, ht.Holds key value ↔ map key = some value

omit [DecidableEq K] in
theorem Refines.present_iff {ht : Hashtable K V} {map : K → Option V} (refined : ht.Refines map)
    (key : K) : ht.Present key ↔ ∃ value, map key = some value := by
  constructor
  · rintro ⟨i, stored⟩
    exact ⟨(ht.table i).value, (refined.holds_iff key _).mp ⟨i, stored, rfl⟩⟩
  · rintro ⟨value, mapped⟩
    exact ((refined.holds_iff key value).mpr mapped).present

omit [DecidableEq K] in
theorem Refines.count_eq_ncard {ht : Hashtable K V} {map : K → Option V}
    (refined : ht.Refines map) : ht.count = {key | map key ≠ none}.ncard := by
  have image : {key | map key ≠ none} = (fun i => (ht.table i).key) '' ↑ht.usedSlots := by
    ext key
    simp only [Set.mem_ofPred_eq, ne_none_iff_exists', ← refined.present_iff, Set.mem_image,
      Finset.mem_coe, mem_usedSlots]
    exact ⟨fun ⟨i, inside, used, same⟩ => ⟨i, ⟨inside, used⟩, same⟩,
      fun ⟨i, ⟨inside, used⟩, same⟩ => ⟨i, inside, used, same⟩⟩
  rw [image, Set.InjOn.ncard_image, Set.ncard_coe_finset, refined.wellFormed.counted]
  intro i first j second same
  obtain ⟨insideFirst, usedFirst⟩ := mem_usedSlots.mp first
  obtain ⟨insideSecond, usedSecond⟩ := mem_usedSlots.mp second
  exact refined.wellFormed.unique _ i j ⟨insideFirst, usedFirst, same⟩ ⟨insideSecond, usedSecond, rfl⟩

omit [DecidableEq K] in
theorem Refines.get_eq {ht : Hashtable K V} {map : K → Option V} [Inhabited V]
    (refined : ht.Refines map) {key : K} {value : V} (returned : ht.get key = some value) :
    value = (map key).getD default := by
  rcases refined.wellFormed.get_eq_some returned with holds | ⟨absent, null⟩
  · rw [(refined.holds_iff key value).mp holds, getD_some]
  · have unmapped : map key = none := by
      rw [eq_none_iff_forall_ne_some]
      intro other mapped
      exact absent ((refined.present_iff key).mpr ⟨other, mapped⟩)
    rw [unmapped, null, getD_none]

variable [Inhabited K] [Inhabited V]

omit [DecidableEq K] in
theorem refines_create (keys : KeyClass K) :
    (create keys : Hashtable K V).Refines fun _ => none where
  wellFormed := wellFormed_cleared minSize (by decide) keys
  load := by simp [create, minSize]
  holds_iff key value := by
    simp only [reduceCtorEq, iff_false]
    rintro ⟨i, stored, _⟩
    simp [Stored, create, clearedNode] at stored

variable {ht next : Hashtable K V}

theorem Refines.add {map : K → Option V} (refined : ht.Refines map)
    {key : K} {value : V} (added : ht.add key value = some next) :
    next.Refines (update map key (some value)) := by
  obtain ⟨i, found, _⟩ := bind_eq_some_iff.mp added
  obtain ⟨result, ran, wellFormed, load, _, _, holds_iff⟩ :=
    refined.wellFormed.addAt refined.load value found
  obtain rfl : result = next := some.inj ((ran 0).symm.trans added)
  refine ⟨wellFormed, load, fun query answer => ?_⟩
  rw [holds_iff, refined.holds_iff]
  by_cases same : query = key
  · subst query
    simp [eq_comm]
  · simp [same]

theorem Refines.remove {map : K → Option V} (refined : ht.Refines map) {key : K} (removed : ht.remove key = some next) :
    next.Refines (update map key none) := by
  obtain ⟨i, found, equal⟩ := map_eq_some_iff.mp removed
  rcases refined.wellFormed.getNode_false found with stored | ⟨_, fresh, absent⟩
  · rw [if_pos stored.2.1] at equal
    subst next
    have load := refined.load
    refine ⟨refined.wellFormed.discard stored, ?_, fun query answer => ?_⟩
    · change ht.count - 1 < ht.size / 2
      omega
    · rw [refined.wellFormed.holds_discard stored, refined.holds_iff]
      by_cases same : query = key
      · subst query
        simp
      · simp [same]
  · rw [if_neg (by simp [fresh.1])] at equal
    subst next
    have unmapped : map key = none := by
      rw [eq_none_iff_forall_ne_some]
      intro other mapped
      exact absent ((refined.present_iff key).mpr ⟨other, mapped⟩)
    rw [← unmapped, update_eq_self]
    exact refined

/-- A call takes the map to the one that the specification gives. -/
theorem Refines.step [DecidableEq V] {map : K → Option V}
    (refined : ht.Refines map) {call : Call K V} (stepped : ht.step call = some next) :
    next.Refines (specStep map call) := by
  cases call with
  | add key value => exact refined.add stepped
  | remove key => exact refined.remove stepped
  | get key | has key =>
    obtain ⟨_, _, rfl⟩ := map_eq_some_iff.mp stepped
    exact refined

/-- After any calls the table refines the map of the calls. -/
theorem refines_run [DecidableEq V] (keys : KeyClass K) (calls : List (Call K V))
    {ht : Hashtable K V} (ran : run Hashtable.step (create keys) calls = some ht) :
    ht.Refines (specOf calls) := by
  have every : Guarded Hashtable.step (fun _ _ => True) (create keys) calls := .of_forall fun _ _ _ => trivial
  refine run_history_of_guarded (fun past ht => ht.Refines (specOf past)) (refines_create keys) every ran
    fun refined _ stepped => ?_
  rw [specOf, List.foldl_append]
  exact refined.step stepped

omit [DecidableEq K] [Inhabited K] in
theorem Refines.get_returns {ht : Hashtable K V} {map : K → Option V} (refined : ht.Refines map)
    (fresh : ht.HasFresh) (key : K) : ht.get key = some ((map key).getD default) := by
  obtain ⟨i, found⟩ := fresh.getNode_returns key false
  have returned : ht.get key =
      some (if (ht.table i).isUsed then (ht.table i).value else default) := by
    rw [Hashtable.get, found, map_some]
  rw [returned, ← refined.get_eq returned]

theorem Refines.add_returns {ht : Hashtable K V} {map : K → Option V} (refined : ht.Refines map)
    (clean : ht.NoTombstone) (key : K) (value : V) :
    ∃ next, ht.add key value = some next ∧ next.NoTombstone ∧
      next.Refines (update map key (some value)) := by
  have load := refined.load
  obtain ⟨i, found⟩ := (refined.wellFormed.hasFresh_of_noTombstone clean
    (by omega)).findSlot_returns key
  obtain ⟨next, ran, _, _, _, shape, _⟩ := refined.wellFormed.addAt load value found
  refine ⟨next, ran 0, ?_, refined.add (ran 0)⟩
  rcases shape with ⟨rfl, _⟩ | tidy
  · exact clean.store i key value
  · exact tidy

/-- The table answers like the map, counts its keys, and gives each of them one slot. -/
structure Agrees (ht : Hashtable K V) (map : K → Option V) : Prop where
  get_eq : ∀ key value, ht.get key = some value → value = (map key).getD default
  count_eq : ht.count = {key | map key ≠ none}.ncard
  one_slot : ∀ key i j, ht.Stored key i → ht.Stored key j → i = j

omit [DecidableEq K] [Inhabited K] in
/-- A table that refines a map agrees with it in all that a caller can ask. -/
theorem Refines.agrees {ht : Hashtable K V} {map : K → Option V} (refined : ht.Refines map) :
    ht.Agrees map where
  get_eq _ _ returned := refined.get_eq returned
  count_eq := refined.count_eq_ncard
  one_slot := refined.wellFormed.unique

omit [DecidableEq K] in
/-- A resize keeps the map. -/
theorem Refines.resize {ht : Hashtable K V} {map : K → Option V} (refined : ht.Refines map) :
    ∃ next, ht.resize (ht.size * 2) = some next ∧ next.Refines map := by
  have load := refined.load
  obtain ⟨next, ran, wellFormed, _, size_eq, _, count_eq, holds_iff⟩ :=
    refined.wellFormed.resizeWith (ht.size * 2) (by omega)
  exact ⟨next, ran 0, wellFormed, by omega, fun key value => by rw [holds_iff, refined.holds_iff]⟩

/-- Both kinds of table refine a finite map over every history, and a resize keeps it. -/
theorem hashtable_refines_map {W : Type} [Inhabited W] [DecidableEq W] :
    (∀ (calls : List (Call (BitVec 32) W)) (ht : Hashtable (BitVec 32) W),
      run Hashtable.step (create uintKeys) calls = some ht →
      ht.Agrees (specOf calls) ∧
        ∃ next, ht.resize (ht.size * 2) = some next ∧ next.Agrees (specOf calls)) ∧
    (∀ (calls : List (Call CString W)) (ht : Hashtable CString W),
      run Hashtable.step (create stringKeys) calls = some ht →
      ht.Agrees (specOf calls) ∧
        ∃ next, ht.resize (ht.size * 2) = some next ∧ next.Agrees (specOf calls)) := by
  constructor
  · intro calls ht ran
    have refined := refines_run uintKeys calls ran
    obtain ⟨next, resized, kept⟩ := refined.resize
    exact ⟨refined.agrees, next, resized, kept.agrees⟩
  · intro calls ht ran
    have refined := refines_run stringKeys calls ran
    obtain ⟨next, resized, kept⟩ := refined.resize
    exact ⟨refined.agrees, next, resized, kept.agrees⟩

/-- A collision, a tombstone and a reused slot still give the answers of the map. -/
theorem hashtable_refines_map_collision :
    ∃ ht : Hashtable (BitVec 32) Nat,
      run Hashtable.step (create uintKeys)
        [.add 1 10, .add 9 20, .remove 1, .add 9 30, .add 17 40, .get 9] = some ht ∧
      ht.Agrees (specOf [.add 1 10, .add 9 20, .remove 1, .add 9 30, .add 17 40, .get 9]) :=
  ⟨_, rfl, (hashtable_refines_map.1 _ _ rfl).1⟩

end Phabos.Hashtable
