import Phabos.Proof.Hashtable.FiniteMap

namespace Phabos.Hashtable
open Library Option List
variable {K V : Type}

/-- The pair of a used slot. -/
def entry (ht : Hashtable K V) (i : Nat) : Option (K × V) :=
  if (ht.table i).isUsed then some ((ht.table i).key, (ht.table i).value) else none

/-- The pairs of the used slots from an index on. -/
def entriesFrom (ht : Hashtable K V) (i : Nat) : List (K × V) := (range' i (ht.size - i)).filterMap ht.entry

/-- All pairs, in the order of their slots. -/
def entries (ht : Hashtable K V) : List (K × V) := ht.entriesFrom 0

variable {ht : Hashtable K V}

theorem entriesFrom_of_le {i : Nat} (beyond : ht.size ≤ i) : ht.entriesFrom i = [] := by
  unfold entriesFrom
  rw [Nat.sub_eq_zero_of_le beyond]
  rfl

theorem entriesFrom_of_lt {i : Nat} (inside : i < ht.size) :
    ht.entriesFrom i = (ht.entry i).toList ++ ht.entriesFrom (i + 1) := by
  unfold entriesFrom
  rw [show ht.size - i = (ht.size - (i + 1)) + 1 by omega, range'_succ]
  cases found : ht.entry i with
  | none => simp [found]
  | some pair => simp [found]

theorem mem_entriesFrom {start : Nat} {key : K} {value : V} :
    (key, value) ∈ ht.entriesFrom start ↔ ∃ i, start ≤ i ∧ ht.Stored key i ∧ (ht.table i).value = value := by
  simp only [entriesFrom, mem_filterMap, mem_range'_1, entry, Option.ite_none_right_eq_some,
    Option.some.injEq, Prod.mk.injEq]
  constructor
  · rintro ⟨i, ⟨above, below⟩, used, same, equal⟩
    exact ⟨i, above, ⟨by omega, used, same⟩, equal⟩
  · rintro ⟨i, above, ⟨inside, used, same⟩, equal⟩
    exact ⟨i, ⟨above, by omega⟩, used, same, equal⟩

theorem mem_entries {key : K} {value : V} : (key, value) ∈ ht.entries ↔ ht.Holds key value := by
  unfold entries Holds
  rw [mem_entriesFrom]
  simp

/-- An iteration meets no key twice. -/
theorem WellFormed.nodup_entriesFrom (wf : ht.WellFormed) (start : Nat) :
    ((ht.entriesFrom start).map Prod.fst).Nodup := by
  generalize left : ht.size - start = distance
  induction distance generalizing start with
  | zero =>
    rw [entriesFrom_of_le (by omega)]
    exact nodup_nil
  | succ distance ih =>
    rw [entriesFrom_of_lt (by omega), map_append]
    have rest := ih (start + 1) (by omega)
    unfold entry
    split
    · rename_i used
      refine nodup_cons.mpr ⟨fun there => ?_, rest⟩
      obtain ⟨⟨key, value⟩, later, same⟩ := mem_map.mp there
      obtain ⟨i, above, stored, -⟩ := mem_entriesFrom.mp later
      have equal := wf.unique key i start stored ⟨by omega, used, same.symm⟩
      omega
    · exact rest

theorem nextUsed_cases (ht : Hashtable K V) (left i : Nat) (bound : i + left = ht.size) :
    ht.nextUsed left i = ht.size ∧ ht.entriesFrom i = [] ∨
      i ≤ ht.nextUsed left i ∧ ht.nextUsed left i < ht.size ∧ (ht.table (ht.nextUsed left i)).isUsed = true ∧
        ht.entriesFrom i = ((ht.table (ht.nextUsed left i)).key, (ht.table (ht.nextUsed left i)).value) ::
          ht.entriesFrom (ht.nextUsed left i + 1) := by
  induction left generalizing i with
  | zero => exact .inl ⟨bound, entriesFrom_of_le (by omega)⟩
  | succ left ih =>
    rw [entriesFrom_of_lt (show i < ht.size by omega)]
    unfold nextUsed entry
    split
    · rename_i used
      exact .inr ⟨Nat.le_refl i, by omega, used, rfl⟩
    · rcases ih (i + 1) (by omega) with done | ⟨above, rest⟩
      · exact .inl done
      · exact .inr ⟨by omega, rest⟩

variable [Inhabited K] [Inhabited V]

omit [Inhabited K] [Inhabited V] in
theorem iterate_cases (ht : Hashtable K V) (iter : Iterator K V) :
    (∃ stopped, ht.iterate iter = (false, stopped)) ∧ ht.entriesFrom iter.i = [] ∨
      ∃ i, iter.i ≤ i ∧ i < ht.size ∧ (ht.table i).isUsed = true ∧
        ht.iterate iter = (true, ⟨i + 1, (ht.table i).key, (ht.table i).value⟩) ∧
        ht.entriesFrom iter.i = ((ht.table i).key, (ht.table i).value) :: ht.entriesFrom (i + 1) := by
  unfold iterate
  by_cases beyond : ht.size ≤ iter.i
  · rw [if_pos beyond]
    exact .inl ⟨⟨iter, rfl⟩, entriesFrom_of_le beyond⟩
  · rw [if_neg beyond]
    dsimp only
    rcases nextUsed_cases ht (ht.size - iter.i) iter.i (by omega) with ⟨last, none⟩ | ⟨above, inside, used, first⟩
    · rw [if_pos (Nat.le_of_eq last.symm)]
      exact .inl ⟨⟨_, rfl⟩, none⟩
    · rw [if_neg (Nat.not_le.mpr inside)]
      exact .inr ⟨_, above, inside, used, rfl, first⟩

/-- A body that removes some of the pairs that it is given. -/
def removing (removes : K → V → Bool) (ht : Hashtable K V) (key : K) (value : V) : Option (Hashtable K V) :=
  if removes key value then ht.remove key else some ht

variable {ht : Hashtable K V}

theorem WellFormed.remove_stored (wf : ht.WellFormed) {key : K} {i : Nat} (stored : ht.Stored key i) :
    ht.remove key = some (ht.discard i) := by
  unfold Hashtable.remove
  rw [wf.getNode_stored stored, map_some, if_pos stored.2.1]

omit [Inhabited K] in
theorem WellFormed.get_stored (wf : ht.WellFormed) {key : K} {i : Nat} (stored : ht.Stored key i) :
    ht.get key = some (ht.table i).value := by
  unfold Hashtable.get
  rw [wf.getNode_stored stored, map_some, if_pos stored.2.1]

theorem entriesFrom_discard (ht : Hashtable K V) {i start : Nat} (before : i < start) :
    (ht.discard i).entriesFrom start = ht.entriesFrom start := by
  unfold entriesFrom
  refine filterMap_congr fun j there => ?_
  have apart : j ≠ i := by
    have bound := mem_range'_1.mp there
    omega
  unfold entry
  rw [discard_table_of_ne ht apart]

/-- A map without the pairs of a list that are removed. -/
def without [DecidableEq K] [DecidableEq V] (map : K → Option V) (removes : K → V → Bool) (pairs : List (K × V))
    (key : K) : Option V :=
  (map key).filter fun value => !(removes key value && decide ((key, value) ∈ pairs))

section Pass
variable [DecidableEq K] [DecidableEq V] {ht : Hashtable K V} {map : K → Option V}

/-- An iteration visits every entry once while its body removes some of them. -/
theorem Refines.iterateAll (body : Hashtable K V → K → V → Option (Hashtable K V)) (removes : K → V → Bool)
    (acts : ∀ t : Hashtable K V, t.WellFormed → ∀ key value, t.Holds key value →
      body t key value = removing removes t key value)
    (refined : ht.Refines map) (iter : Iterator K V) {pairs : List (K × V)} (left : ht.entriesFrom iter.i = pairs) :
    ∃ last, (∀ fuel, pairs.length < fuel → Hashtable.iterateAll body fuel ht iter = some (pairs, last)) ∧
      last.Refines (without map removes pairs) := by
  induction pairs generalizing ht map iter with
  | nil =>
    have same : without map removes [] = map := by
      funext key
      unfold without
      cases map key with
      | none => rfl
      | some value => simp
    refine ⟨ht, fun fuel enough => ?_, same.symm ▸ refined⟩
    obtain ⟨fuel, rfl⟩ := Nat.exists_eq_succ_of_ne_zero (Nat.ne_of_gt enough)
    unfold Hashtable.iterateAll
    rcases iterate_cases ht iter with ⟨⟨stopped, done⟩, -⟩ | ⟨i, -, -, -, -, first⟩
    · rw [done]
    · rw [left] at first
      cases first
  | cons pair rest ih =>
    obtain ⟨i, above, inside, used, given, first⟩ := (iterate_cases ht iter).resolve_left fun done => by
      rw [left] at done
      cases done.2
    rw [left, cons.injEq] at first
    obtain ⟨rfl, behind⟩ := first
    have stored : ht.Stored (ht.table i).key i := ⟨inside, used, rfl⟩
    have mapped : map (ht.table i).key = some (ht.table i).value :=
      (refined.holds_iff _ _).mp ⟨i, stored, rfl⟩
    -- what the body leaves has the same pairs behind the slot
    obtain ⟨next, acted, kept, later⟩ : ∃ next, removing removes ht (ht.table i).key (ht.table i).value = some next ∧
        next.entriesFrom (i + 1) = rest ∧ next.Refines
          (if removes (ht.table i).key (ht.table i).value then Function.update map (ht.table i).key none else map) := by
      unfold removing
      split
      · have removed := refined.wellFormed.remove_stored stored
        exact ⟨_, removed, (entriesFrom_discard ht (Nat.lt_succ_self i)).trans behind.symm, refined.remove removed⟩
      · exact ⟨ht, rfl, behind.symm, refined⟩
    obtain ⟨last, ran, refines⟩ := ih later ⟨i + 1, (ht.table i).key, (ht.table i).value⟩ kept
    refine ⟨last, fun fuel enough => ?_, ?_⟩
    · obtain ⟨fuel, rfl⟩ := Nat.exists_eq_succ_of_ne_zero (Nat.ne_of_gt (Nat.zero_lt_of_lt enough))
      unfold Hashtable.iterateAll
      rw [given]
      dsimp only
      rw [acts ht refined.wellFormed _ _ ⟨i, stored, rfl⟩, acted, bind_some,
        ran fuel (Nat.lt_of_succ_lt_succ enough)]
      rfl
    · have same : without map removes (((ht.table i).key, (ht.table i).value) :: rest) =
          without (if removes (ht.table i).key (ht.table i).value then Function.update map (ht.table i).key none
            else map) removes rest := by
        funext key
        unfold without
        by_cases equal : key = (ht.table i).key
        · subst equal
          rw [mapped]
          by_cases removed : removes (ht.table i).key (ht.table i).value = true
          · simp [filter_some, removed]
          · simp [filter_some, Bool.eq_false_iff.mpr removed, mapped]
        · split
          · simp [equal]
          · simp [equal]
      rw [same]
      exact refines

end Pass

/-- No slot of the table is used. -/
def Emptied (ht : Hashtable K V) : Prop := ht.count = 0 ∧ ∀ i < ht.size, (ht.table i).isUsed = false

omit [Inhabited K] [Inhabited V] in
theorem Refines.emptied {map : K → Option V} (refined : ht.Refines map) (none : ∀ key, map key = none) :
    ht.Emptied := by
  constructor
  · have empty : {key | map key ≠ Option.none} = ∅ := by
      ext key
      simp [none]
    rw [refined.count_eq_ncard, empty, Set.ncard_empty]
  · intro i inside
    by_contra used
    have mapped := (refined.holds_iff _ _).mp ⟨i, ⟨inside, Bool.not_eq_false _ ▸ used, rfl⟩, rfl⟩
    rw [none] at mapped
    cases mapped

section Pass
variable [DecidableEq K] [DecidableEq V]

omit [DecidableEq K] in
theorem WellFormed.taskFreeFdnum (wf : ht.WellFormed) {key : K} {value : V} (holds : ht.Holds key value) :
    ht.taskFreeFdnum key = removing (fun _ value => decide (value ≠ default)) ht key value := by
  obtain ⟨i, stored, rfl⟩ := holds
  unfold Hashtable.taskFreeFdnum removing
  rw [wf.get_stored stored, bind_some]
  by_cases null : (ht.table i).value = default
  · simp [null]
  · simp [null]

/-- A pass over a table gives each pair of the map once, whatever its body removes of what it is given, and what it
removes is gone afterwards. The body of `task_destroy` removes everything. -/
theorem hashtable_iterate_complete (keys : KeyClass K) (calls : List (Call K V)) (ht : Hashtable K V)
    (ran : run Hashtable.step (create keys) calls = some ht) (removes : K → V → Bool) :
    ∃ pairs last, (∀ fuel, ht.size < fuel → iterateAll (removing removes) fuel ht iteratorInit = some (pairs, last)) ∧
      pairs.Nodup ∧ (∀ key value, (key, value) ∈ pairs ↔ specOf calls key = some value) ∧
      last.Refines (fun key => (specOf calls key).filter fun value => !removes key value) ∧
      ((∀ key value, removes key value = true) → last.Emptied) ∧
      ((∀ key value, specOf calls key = some value → value ≠ default) →
        ∃ freed, (∀ fuel, ht.size < fuel →
          iterateAll (fun ht key _ => ht.taskFreeFdnum key) fuel ht iteratorInit = some (pairs, freed)) ∧
            freed.Emptied) := by
  have refined := refines_run keys calls ran
  have short : ht.entries.length ≤ ht.size := by
    have bound := length_filterMap_le ht.entry (range' 0 ht.size)
    rw [length_range'] at bound
    exact bound
  have pairs (key : K) (value : V) : (key, value) ∈ ht.entries ↔ specOf calls key = some value := by
    rw [mem_entries, refined.holds_iff]
  have remaining (removes : K → V → Bool) (key : K) : without (specOf calls) removes ht.entries key =
      (specOf calls key).filter fun value => !removes key value := by
    unfold without
    cases mapped : specOf calls key with
    | none => rfl
    | some value => simp [Option.filter_some, (pairs key value).mpr mapped]
  have pass (body : Hashtable K V → K → V → Option (Hashtable K V)) (removes : K → V → Bool)
      (acts : ∀ t : Hashtable K V, t.WellFormed → ∀ key value, t.Holds key value →
        body t key value = removing removes t key value) :
      ∃ last, (∀ fuel, ht.size < fuel → iterateAll body fuel ht iteratorInit = some (ht.entries, last)) ∧
        last.Refines fun key => (specOf calls key).filter fun value => !removes key value := by
    obtain ⟨last, passes, refines⟩ := refined.iterateAll body removes acts iteratorInit rfl
    exact ⟨last, fun fuel enough => passes fuel (Nat.lt_of_le_of_lt short enough),
      funext (remaining removes) ▸ refines⟩
  obtain ⟨last, passes, refines⟩ := pass (removing removes) removes fun _ _ _ _ _ => rfl
  refine ⟨ht.entries, last, passes, List.Nodup.of_map _ (refined.wellFormed.nodup_entriesFrom 0), pairs, refines,
    fun all => refines.emptied fun key => ?_, fun nonNull => ?_⟩
  · cases specOf calls key with
    | none => rfl
    | some value => simp [Option.filter_some, all]
  · obtain ⟨freed, passes, refines⟩ := pass (fun ht key _ => ht.taskFreeFdnum key)
      (fun _ value => decide (value ≠ default)) fun t wf key value holds => wf.taskFreeFdnum holds
    refine ⟨freed, passes, refines.emptied fun key => ?_⟩
    cases mapped : specOf calls key with
    | none => rfl
    | some value => simp [Option.filter_some, nonNull key value mapped]

end Pass

/-- A pass that removes everything goes on behind the tombstones that it and the calls before it leave. -/
theorem hashtable_iterate_complete_tombstones :
    ∃ (ht : Hashtable (BitVec 32) Nat) (pairs : List (BitVec 32 × Nat)) (last : Hashtable (BitVec 32) Nat),
      run Hashtable.step (create uintKeys) [.add 1 10, .add 9 20, .add 17 30, .remove 9] = some ht ∧
      iterateAll (removing fun _ _ => true) 9 ht iteratorInit = some (pairs, last) ∧ (1, 10) ∈ pairs ∧
      (17, 30) ∈ pairs ∧ last.Emptied := by
  obtain ⟨pairs, last, passes, -, exact, -, emptied, -⟩ := hashtable_iterate_complete uintKeys
    [.add 1 10, .add 9 20, .add 17 30, .remove 9] _ rfl fun _ (_ : Nat) => true
  exact ⟨_, pairs, last, rfl, passes 9 (by decide), (exact 1 10).mpr rfl, (exact 17 30).mpr rfl,
    emptied fun _ _ => rfl⟩

end Phabos.Hashtable
