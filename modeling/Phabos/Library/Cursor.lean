import Mathlib.Data.List.Nodup

namespace Phabos.Library.Cursor
open List

section Cursor
variable {Node : Type*} [DecidableEq Node]

/-- The nodes of a list from a cursor on, where the cursor `none` stands for the list head. -/
def onwards (nodes : List Node) : Option Node → List Node
  | none => []
  | some node => nodes.dropWhile (· ≠ node)

/-- The node after a cursor, where an unlinked node points to itself. -/
def next (nodes : List Node) : Option Node → Option Node
  | none => nodes.head?
  | some node => if node ∈ nodes then (onwards nodes (some node)).tail.head? else some node

variable {nodes : List Node} {node other : Node}

@[simp] theorem onwards_none : onwards nodes none = [] := rfl

theorem onwards_cons_self : onwards (node :: nodes) (some node) = node :: nodes := by
  simp [onwards]

theorem onwards_cons_of_ne (differs : other ≠ node) :
    onwards (other :: nodes) (some node) = onwards nodes (some node) := by
  simp [onwards, differs]

/-- From its first node on, a list is whole. -/
theorem onwards_head : onwards nodes nodes.head? = nodes := by
  cases nodes with
  | nil => rfl
  | cons first rest => exact onwards_cons_self

/-- The node after one in the middle is the first of the rest. -/
theorem next_middle {before rest : List Node} (fresh : node ∉ before) :
    next (before ++ node :: rest) (some node) = rest.head? := by
  have listed : node ∈ before ++ node :: rest := mem_append_right _ mem_cons_self
  have seen : onwards (before ++ node :: rest) (some node) = node :: rest := by
    induction before with
    | nil => exact onwards_cons_self
    | cons first before ih =>
      have differs : first ≠ node := fun same => fresh (same ▸ mem_cons_self)
      rw [cons_append, onwards_cons_of_ne differs]
      exact ih (fun later => fresh (mem_cons_of_mem _ later))
        (mem_append_right _ mem_cons_self)
  simp only [next, if_pos listed, seen, tail_cons]

/-- The node after the first one is the first of the rest. -/
theorem next_first {rest : List Node} : next (node :: rest) (some node) = rest.head? :=
  @next_middle _ _ node [] rest not_mem_nil

/-- What a cursor sees belongs to the list. -/
theorem mem_of_mem_onwards {cursor : Option Node} (seen : node ∈ onwards nodes cursor) :
    node ∈ nodes := by
  cases cursor with
  | none => cases seen
  | some start => exact (dropWhile_suffix _).subset seen

/-- A cursor on a node of the list sees that node first, and then what the next cursor sees. -/
theorem onwards_next (distinct : nodes.Nodup) (listed : node ∈ nodes) :
    onwards nodes (some node) = node :: onwards nodes (next nodes (some node)) := by
  simp only [next, if_pos listed]
  induction nodes with
  | nil => cases listed
  | cons first rest ih =>
    obtain ⟨fresh, distinct⟩ := nodup_cons.mp distinct
    by_cases same : first = node
    · subst same
      rw [onwards_cons_self, tail_cons]
      congr 1
      cases rest with
      | nil => rfl
      | cons second rest =>
        have differs : first ≠ second := fun same => fresh (same ▸ mem_cons_self)
        rw [head?_cons, onwards_cons_of_ne differs, onwards_cons_self]
    · have listed : node ∈ rest := (mem_cons.mp listed).resolve_left (Ne.symm same)
      rw [onwards_cons_of_ne same]
      rw [ih distinct listed]
      congr 1
      rw [← ih distinct listed]
      cases found : (onwards rest (some node)).tail.head? with
      | none => rfl
      | some after =>
        have seen : after ∈ rest :=
          mem_of_mem_onwards (mem_of_mem_tail (mem_of_mem_head? found))
        have differs : first ≠ after := fun same => fresh (same ▸ seen)
        exact (onwards_cons_of_ne differs).symm

/-- The next cursor is on a node of the list or does not move. -/
theorem mem_or_eq_of_next {cursor : Option Node} (found : next nodes cursor = some other) :
    other ∈ nodes ∨ cursor = some other := by
  cases cursor with
  | none => exact .inl (mem_of_mem_head? found)
  | some node =>
    simp only [next] at found
    split at found
    · exact .inl (mem_of_mem_onwards (mem_of_mem_tail (mem_of_mem_head? found)))
    · exact .inr found

/-- A node that is added at the end is seen by every cursor on the list. -/
theorem onwards_append (listed : node ∈ nodes) :
    onwards (nodes ++ [other]) (some node) = onwards nodes (some node) ++ [other] := by
  induction nodes with
  | nil => cases listed
  | cons first rest ih =>
    by_cases same : first = node
    · rw [same, cons_append, onwards_cons_self, onwards_cons_self, cons_append]
    · have listed : node ∈ rest := (mem_cons.mp listed).resolve_left (Ne.symm same)
      rw [cons_append, onwards_cons_of_ne same, onwards_cons_of_ne same, ih listed]

/-- A cursor on another node loses only the node that is removed. -/
theorem onwards_erase (distinct : nodes.Nodup) (differs : other ≠ node) :
    onwards (nodes.erase other) (some node) = (onwards nodes (some node)).erase other := by
  induction nodes with
  | nil => rfl
  | cons first rest ih =>
    obtain ⟨fresh, distinct⟩ := nodup_cons.mp distinct
    by_cases same : first = node
    · rw [same, erase_cons_tail (by simpa using Ne.symm differs), onwards_cons_self,
        onwards_cons_self, erase_cons_tail (by simpa using Ne.symm differs)]
    · rw [onwards_cons_of_ne same]
      by_cases removed : first = other
      · rw [removed, erase_cons_head]
        apply (erase_of_not_mem _).symm
        intro seen
        exact fresh (removed ▸ mem_of_mem_onwards seen)
      · rw [erase_cons_tail (by simpa using removed), onwards_cons_of_ne same]
        exact ih distinct

/-- A cursor reaches a node after at most some number of others. -/
def Within (nodes : List Node) (cursor : Option Node) (node : Node) (steps : ℕ) : Prop :=
  ∃ before after, onwards nodes cursor = before ++ node :: after ∧ before.length ≤ steps

section Within
variable {target : Node} {steps : ℕ}

/-- The first cursor reaches every node of the list. -/
theorem Within.head (listed : target ∈ nodes) : Within nodes nodes.head? target (nodes.length - 1) := by
  obtain ⟨before, after, parts⟩ := append_of_mem listed
  refine ⟨before, after, ?_, ?_⟩
  · rw [onwards_head, parts]
  · rw [parts, length_append, length_cons]
    omega

/-- The first cursor is as near to a node after an end is added. -/
theorem Within.append_head (within : Within nodes nodes.head? target steps) :
    Within (nodes ++ [other]) (nodes ++ [other]).head? target steps := by
  obtain ⟨before, after, parts, near⟩ := within
  rw [onwards_head] at parts
  refine ⟨before, after ++ [other], ?_, near⟩
  rw [onwards_head, parts, append_assoc, cons_append]

/-- The first cursor comes no further away from a node when another one is removed. -/
theorem Within.erase_head (kept : other ≠ target) (within : Within nodes nodes.head? target steps) :
    Within (nodes.erase other) (nodes.erase other).head? target steps := by
  obtain ⟨before, after, parts, near⟩ := within
  rw [onwards_head] at parts
  rw [Within, onwards_head, parts]
  by_cases earlier : other ∈ before
  · refine ⟨before.erase other, after, erase_append_left _ earlier, ?_⟩
    exact Nat.le_trans length_erase_le near
  · refine ⟨before, after.erase other, ?_, near⟩
    rw [erase_append_right _ earlier, erase_cons_tail (by simpa using Ne.symm kept)]

/-- A cursor that has not reached a node gets nearer to it. -/
theorem Within.next (distinct : nodes.Nodup) (listed : node ∈ nodes) (within : Within nodes (some node) target steps) :
    target = node ∨ 1 ≤ steps ∧ Within nodes (Cursor.next nodes (some node)) target (steps - 1) := by
  obtain ⟨before, after, parts, near⟩ := within
  rw [onwards_next distinct listed] at parts
  cases before with
  | nil => exact .inl (cons.inj parts).1.symm
  | cons first before =>
    rw [length_cons] at near
    exact .inr ⟨by omega, before, after, (cons.inj parts).2, by omega⟩

/-- The end of the list does not come between a cursor and a node. -/
theorem Within.append (listed : node ∈ nodes) (within : Within nodes (some node) target steps) :
    Within (nodes ++ [other]) (some node) target steps := by
  obtain ⟨before, after, parts, near⟩ := within
  refine ⟨before, after ++ [other], ?_, near⟩
  rw [onwards_append listed, parts, append_assoc, cons_append]

/-- The removal of another node brings a cursor no further away. -/
theorem Within.erase (distinct : nodes.Nodup) (differs : other ≠ node) (kept : other ≠ target)
    (within : Within nodes (some node) target steps) :
    Within (nodes.erase other) (some node) target steps := by
  obtain ⟨before, after, parts, near⟩ := within
  rw [Within, onwards_erase distinct differs, parts]
  by_cases earlier : other ∈ before
  · refine ⟨before.erase other, after, erase_append_left _ earlier, ?_⟩
    exact Nat.le_trans length_erase_le near
  · refine ⟨before, after.erase other, ?_, near⟩
    rw [erase_append_right _ earlier, erase_cons_tail (by simpa using Ne.symm kept)]

end Within

end Cursor

end Phabos.Library.Cursor
