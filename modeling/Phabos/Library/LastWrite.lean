import Mathlib.Data.List.Perm.Basic

namespace Phabos.Library
open List

section LastWrite
variable {Op Key Value : Type*} (writes : Op → Key → Option Value)

/-- What an operation writes replaces what was there. -/
def overwrite (values : Key → Value) (op : Op) : Key → Value := fun key => (writes op key).getD (values key)

/-- The operations one after the other -/
def replay (ops : List Op) (values : Key → Value) : Key → Value := ops.foldl (overwrite writes) values

variable {writes} {ops : List Op} {values : Key → Value} {key : Key} {op : Op} {value : Value}

theorem replay_append (first last : List Op) (values : Key → Value) :
    replay writes (first ++ last) values = replay writes last (replay writes first values) :=
  foldl_append

/-- A key that nothing writes keeps its value. -/
theorem replay_unwritten (unwritten : ∀ op ∈ ops, writes op key = none) :
    replay writes ops values key = values key := by
  induction ops generalizing values with
  | nil => rfl
  | cons op rest ih =>
    have own : overwrite writes values op key = values key := by
      unfold overwrite
      rw [unwritten op mem_cons_self]
      rfl
    exact (ih fun other there => unwritten other (mem_cons_of_mem _ there)).trans own

/-- What becomes of a key depends on its own value only. -/
theorem replay_congr {other : Key → Value} (same : values key = other key) (ops : List Op) :
    replay writes ops values key = replay writes ops other key := by
  induction ops generalizing values other with
  | nil => exact same
  | cons op rest ih =>
    apply ih
    unfold overwrite
    rw [same]

/-- Operations that do not write a key may be left out. -/
theorem replay_filter (keep : Op → Bool) (others : ∀ op ∈ ops, keep op = false → writes op key = none) :
    replay writes (ops.filter keep) values key = replay writes ops values key := by
  induction ops generalizing values with
  | nil => rfl
  | cons op rest ih =>
    have later := fun other there => others other (mem_cons_of_mem _ there)
    cases kept : keep op with
    | true =>
      rw [filter_cons_of_pos kept]
      exact ih later
    | false =>
      rw [filter_cons_of_neg (by rw [kept]; exact Bool.false_ne_true), ih later]
      refine replay_congr ?_ rest
      unfold overwrite
      rw [others op mem_cons_self kept]
      rfl

/-- After an operation that writes a key, operations that write the same value there keep it. -/
theorem replay_written (some_op : ops ≠ []) (written : ∀ op ∈ ops, writes op key = some value) :
    replay writes ops values key = value := by
  induction ops generalizing values with
  | nil => exact absurd rfl some_op
  | cons op rest ih =>
    cases rest with
    | nil =>
      change (writes op key).getD (values key) = value
      rw [written op mem_cons_self]
      rfl
    | cons other rest =>
      exact ih (cons_ne_nil _ _) fun one there => written one (mem_cons_of_mem _ there)

/-- A key has the value that some operation wrote, or nothing wrote it. -/
theorem replay_cases (ops : List Op) (values : Key → Value) (key : Key) :
    (∃ op ∈ ops, writes op key = some (replay writes ops values key)) ∨
      (∀ op ∈ ops, writes op key = none) ∧ replay writes ops values key = values key := by
  induction ops generalizing values with
  | nil => exact Or.inr ⟨nofun, rfl⟩
  | cons op rest ih =>
    obtain ⟨writer, there, wrote⟩ | ⟨unwritten, same⟩ := ih (overwrite writes values op)
    · exact Or.inl ⟨writer, mem_cons_of_mem _ there, wrote⟩
    · change replay writes rest (overwrite writes values op) key = _ at same
      cases own : writes op key with
      | some value =>
        refine Or.inl ⟨op, mem_cons_self, ?_⟩
        change _ = some (replay writes rest (overwrite writes values op) key)
        rw [same, own]
        unfold overwrite
        rw [own]
        rfl
      | none =>
        refine Or.inr ⟨fun other there => ?_, ?_⟩
        · cases mem_cons.mp there with
          | inl first => rw [first, own]
          | inr later => exact unwritten other later
        · refine Eq.trans same ?_
          unfold overwrite
          rw [own]
          rfl

variable [DecidableEq Op]

/-- The copies of an operation go behind all others. -/
def moveLast (op : Op) (ops : List Op) : List Op := ops.filter (· ≠ op) ++ ops.filter (· = op)

theorem moveLast_perm (op : Op) (ops : List Op) : (moveLast op ops).Perm ops := by
  have parts := filter_append_perm (fun other => decide (other ≠ op)) ops
  simp only [decide_not, Bool.not_not] at parts
  simpa only [moveLast, decide_not] using parts

/-- What the last operation writes stays. -/
theorem replay_moveLast_written (there : op ∈ ops) (written : writes op key = some value) :
    replay writes (moveLast op ops) values key = value := by
  unfold moveLast
  rw [replay_append]
  apply replay_written
  · exact ne_nil_of_mem (mem_filter.mpr ⟨there, decide_eq_true rfl⟩)
  · intro other found
    rw [of_decide_eq_true (mem_filter.mp found).2, written]

/-- What an operation does not write is not changed when it goes last. -/
theorem replay_moveLast_unwritten (unwritten : writes op key = none) :
    replay writes (moveLast op ops) values key = replay writes ops values key := by
  unfold moveLast
  rw [replay_append, replay_unwritten]
  · apply replay_filter
    intro other _ left
    rw [not_ne_iff.mp (of_decide_eq_false left), unwritten]
  · intro other found
    rw [of_decide_eq_true (mem_filter.mp found).2, unwritten]

/-- Some order of the operations gives a key its last value, and keeps those of the keys that its writers leave alone. -/
theorem exists_settled {last : Key → Value}
    (settled : (∃ op ∈ ops, writes op key = some (last key)) ∨
      (∀ op ∈ ops, writes op key = none) ∧ last key = values key) :
    ∃ order, order.Perm ops ∧ replay writes order values key = last key ∧
      ∀ other, (∀ op, writes op key = some (last key) → writes op other = none ∨ writes op other = some (last other)) →
        replay writes ops values other = last other → replay writes order values other = last other := by
  obtain ⟨op, there, written⟩ | ⟨unwritten, same⟩ := settled
  · refine ⟨moveLast op ops, moveLast_perm op ops, replay_moveLast_written there written, fun other alone right => ?_⟩
    cases alone op written with
    | inl skips => exact (replay_moveLast_unwritten skips).trans right
    | inr agrees => exact replay_moveLast_written there agrees
  · exact ⟨ops, List.Perm.refl ops, (replay_unwritten unwritten).trans same.symm, fun _ _ right => right⟩

end LastWrite

end Phabos.Library
