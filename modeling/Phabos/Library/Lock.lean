import Mathlib.Data.List.Basic

namespace Phabos.Library

section Lock
variable {Party : Type*} {locked locked' : Bool} {inside inside' : Party → Prop}

/-- At most one party is inside, and only while the lock is taken. -/
structure Exclusive (locked : Bool) (inside : Party → Prop) : Prop where
  held : ∀ party, inside party → locked = true
  alone : ∀ one two, inside one → inside two → one = two

/-- What a party may do with a lock in a step, by whether it is inside before the step and after it -/
inductive Turn (locked locked' : Bool) (before after : Prop) : Prop
  | acquire (free : locked = false) (taken : locked' = true) (enters : after)
  | inside (was : before) (same : locked' = locked) (stays : after)
  | release (was : before) (freed : locked' = false) (leaves : ¬after)
  | outside (was : ¬before) (same : locked' = locked) (stays : ¬after)

/-- Turns keep a lock exclusive. -/
theorem Exclusive.turn (exclusive : Exclusive locked inside) (party : Party)
    (turn : Turn locked locked' (inside party) (inside' party))
    (others : ∀ other, other ≠ party → (inside' other ↔ inside other)) : Exclusive locked' inside' := by
  have stranger {other : Party} (differs : other ≠ party) (there : inside' other) : inside other :=
    (others other differs).mp there
  have only (was : inside party) {other : Party} (there : inside' other) : other = party := by
    by_contra differs
    exact differs (exclusive.alone other party (stranger differs there) was)
  cases turn with
  | acquire free taken enters =>
    have only {other : Party} (there : inside' other) : other = party := by
      by_contra differs
      have held := exclusive.held other (stranger differs there)
      rw [free] at held
      cases held
    exact ⟨fun _ _ => taken, fun one two first second => (only first).trans (only second).symm⟩
  | inside was same stays =>
    refine ⟨fun _ _ => same.trans (exclusive.held party was), fun one two first second => ?_⟩
    exact (only was first).trans (only was second).symm
  | release was freed leaves =>
    have none {other : Party} (there : inside' other) : False := leaves (only was there ▸ there)
    exact ⟨fun _ there => (none there).elim, fun _ _ there _ => (none there).elim⟩
  | outside was same stays =>
    have before {other : Party} (there : inside' other) : inside other :=
      stranger (fun own => stays (own ▸ there)) there
    exact ⟨fun other there => same.trans (exclusive.held other (before there)),
      fun one two first second => exclusive.alone one two (before first) (before second)⟩

/-- A lock stays exclusive when a party leaves without freeing it. -/
theorem Exclusive.leak (exclusive : Exclusive locked inside) (fewer : ∀ party, inside' party → inside party) :
    Exclusive locked inside' :=
  ⟨fun party there => exclusive.held party (fewer party there),
    fun one two first second => exclusive.alone one two (fewer one first) (fewer two second)⟩

/-- With turns only, a lock is taken only while a party is inside. -/
theorem Turn.holder (party : Party) (turn : Turn locked locked' (inside party) (inside' party))
    (others : ∀ other, other ≠ party → (inside' other ↔ inside other)) (holder : locked = true → ∃ other, inside other)
    (taken : locked' = true) : ∃ other, inside' other := by
  cases turn with
  | acquire free taken enters => exact ⟨party, enters⟩
  | inside was same stays => exact ⟨party, stays⟩
  | release was freed leaves =>
    rw [freed] at taken
    cases taken
  | outside was same stays =>
    obtain ⟨other, there⟩ := holder (same.symm.trans taken)
    have differs : other ≠ party := by
      rintro rfl
      exact was there
    exact ⟨other, (others other differs).mpr there⟩

end Lock

end Phabos.Library
