import Phabos.Construction.Greybus.Cport

namespace Phabos.Greybus
open Function

variable {operation : OpId}

section Unref
variable {refs : Refs} {op : OpId}

theorem gbOperationUnref_response (depth : ℕ) (refs : Refs) (op : OpId) {other operation : OpId}
    (attached : (gbOperationUnref depth refs op).response other = some operation) :
    refs.response other = some operation := by
  induction depth generalizing refs op with
  | zero => exact attached
  | succ depth ih =>
    simp only [gbOperationUnref] at attached
    split at attached
    · exact attached
    · split at attached
      · exact attached
      · simp only [update_apply] at attached
        split at attached
        · cases attached
        · split at attached
          · have before := ih _ _ attached
            exact before
          · exact attached

theorem gbOperationUnref_many (depth : ℕ) (refs : Refs) (several : 1 < refs.refCount op) :
    gbOperationUnref (depth + 1) refs op =
      { refs with refCount := update refs.refCount op (refs.refCount op - 1) } := by
  simp only [gbOperationUnref]
  rw [if_neg (by omega), if_pos]
  rw [update_self]
  omega

theorem gbOperationUnref_last (depth : ℕ) (refs : Refs) (last : refs.refCount op = 1)
    (alone : refs.response op = none) :
    gbOperationUnref (depth + 1) refs op = { refs with
      refCount := update refs.refCount op 0
      freed := update refs.freed op (refs.freed op + 1) } := by
  simp only [gbOperationUnref, last, alone]
  simp [alone]

theorem gbOperationUnref_response_last (depth : ℕ) (last : refs.refCount op = 1)
    (attached : refs.response op = some operation) :
    gbOperationUnref (depth + 1) refs op =
      let rest := gbOperationUnref depth
        { refs with refCount := update refs.refCount op 0 } operation
      { rest with
        response := update rest.response op none
        freed := update rest.freed op (rest.freed op + 1) } := by
  simp only [gbOperationUnref, last, attached]
  simp

end Unref

/-- Some operation has this one as its response. -/
def Refs.Linked (refs : Refs) (op : OpId) : Prop := ∃ request, refs.response request = some op

/-- The count of each operation is the number of its holders, the operation whose response it is
included. It was returned once if no holder is left. -/
structure Refs.Counted (refs : Refs) (absent : OpId → Prop) (holders : OpId → ℕ) : Prop where
  linked : ∀ op, refs.Linked op → refs.refCount op = holders op + 1
  unlinked : ∀ op, ¬refs.Linked op → refs.refCount op = holders op
  unborn : ∀ op, absent op → refs.refCount op = 0 ∧ refs.freed op = 0
  live : ∀ op, refs.refCount op ≠ 0 → refs.freed op = 0
  dead : ∀ op, ¬absent op → refs.refCount op = 0 → refs.freed op = 1
  released : ∀ op, refs.refCount op = 0 → refs.response op = none
  unique : ∀ op other operation, refs.response op = some operation →
    refs.response other = some operation → op = other
  flat : ∀ op operation, refs.response op = some operation → refs.response operation = none
  never : refs.badUnrefs = 0

section Counted
variable {refs : Refs} {absent absent' : OpId → Prop} {holders holders' : OpId → ℕ} {op : OpId}

section
variable (counted : refs.Counted absent holders)
include counted

/-- An operation that has a holder is counted. -/
theorem Refs.Counted.pos (held : 0 < holders op) : 0 < refs.refCount op := by
  by_cases linked : refs.Linked op
  · rw [counted.linked op linked]
    omega
  · rw [counted.unlinked op linked]
    exact held

theorem Refs.Counted.congr (births : ∀ op, absent' op ↔ absent op) (same : ∀ op, holders' op = holders op) :
    refs.Counted absent' holders' := by
  obtain rfl : absent' = absent := funext fun op => propext (births op)
  obtain rfl : holders' = holders := funext same
  exact counted

theorem Refs.Counted.change (refs' : Refs) (op : OpId) (response : refs'.response = refs.response)
    (never : refs'.badUnrefs = refs.badUnrefs)
    (others : ∀ other, other ≠ op → refs'.refCount other = refs.refCount other ∧ refs'.freed other = refs.freed other ∧ holders' other = holders other ∧ (absent' other ↔ absent other))
    (linked : refs.Linked op → refs'.refCount op = holders' op + 1)
    (unlinked : ¬refs.Linked op → refs'.refCount op = holders' op) (born : ¬absent' op)
    (live : refs'.refCount op ≠ 0 → refs'.freed op = 0)
    (dead : refs'.refCount op = 0 → refs'.freed op = 1 ∧ refs.response op = none) :
    refs'.Counted absent' holders' := by
  have links : ∀ other, refs'.Linked other ↔ refs.Linked other := fun other => by
    rw [Refs.Linked, Refs.Linked, response]
  constructor
  · intro other some
    rw [links] at some
    by_cases same : other = op
    · rw [same] at some ⊢
      exact linked some
    · obtain ⟨count, -, held, -⟩ := others other same
      rw [count, held]
      exact counted.linked other some
  · intro other none
    rw [links] at none
    by_cases same : other = op
    · rw [same] at none ⊢
      exact unlinked none
    · obtain ⟨count, -, held, -⟩ := others other same
      rw [count, held]
      exact counted.unlinked other none
  · intro other absent
    have differs : other ≠ op := fun same => born (same ▸ absent)
    obtain ⟨count, freed, -, before⟩ := others other differs
    rw [count, freed]
    exact counted.unborn other (before.mp absent)
  · intro other counts
    by_cases same : other = op
    · rw [same] at counts ⊢
      exact live counts
    · obtain ⟨count, freed, -, -⟩ := others other same
      rw [freed]
      rw [count] at counts
      exact counted.live other counts
  · intro other present counts
    by_cases same : other = op
    · rw [same] at counts ⊢
      exact (dead counts).1
    · obtain ⟨count, freed, -, before⟩ := others other same
      rw [freed]
      rw [count] at counts
      rw [before] at present
      exact counted.dead other present counts
  · intro other counts
    rw [response]
    by_cases same : other = op
    · rw [same] at counts ⊢
      exact (dead counts).2
    · rw [(others other same).1] at counts
      exact counted.released other counts
  · rw [response]
    exact counted.unique
  · rw [response]
    exact counted.flat
  · rw [never]
    exact counted.never

theorem Refs.Counted.create (unborn : absent op) (births : ∀ other, absent' other ↔ absent other ∧ other ≠ op)
    (more : holders' = update holders op (holders op + 1)) : (refs.create op).Counted absent' holders' := by
  have zero := counted.unborn op unborn
  have alone : ¬refs.Linked op := fun link => by
    have count := counted.linked op link
    omega
  have free := counted.unlinked op alone
  have first : (refs.create op).refCount op = 1 := update_self _ _ _
  apply counted.change (refs.create op) op rfl rfl
  · intro other differs
    rw [more, births other, update_of_ne differs]
    exact ⟨update_of_ne differs _ _, rfl, rfl, and_iff_left differs⟩
  · exact fun link => absurd link alone
  · intro _
    rw [first, more, update_self]
    omega
  · exact fun absent => ((births op).mp absent).2 rfl
  · exact fun _ => zero.2
  · intro count
    omega

theorem Refs.Counted.ref (held : 0 < holders op) (births : ∀ op, absent' op ↔ absent op)
    (more : holders' = update holders op (holders op + 1)) : (gbOperationRef refs op).Counted absent' holders' := by
  have positive := counted.pos held
  have count : (gbOperationRef refs op).refCount op = refs.refCount op + 1 := by
    unfold gbOperationRef
    rw [if_neg (by omega)]
    exact update_self _ _ _
  have same : (gbOperationRef refs op).response = refs.response ∧
      (gbOperationRef refs op).badUnrefs = refs.badUnrefs ∧ (gbOperationRef refs op).freed = refs.freed := by
    unfold gbOperationRef
    split <;> exact ⟨rfl, rfl, rfl⟩
  apply counted.change _ op same.1 same.2.1
  · intro other differs
    rw [more, births other, update_of_ne differs, same.2.2]
    refine ⟨?_, rfl, rfl, Iff.rfl⟩
    unfold gbOperationRef
    split
    · rfl
    · exact update_of_ne differs _ _
  · intro link
    rw [count, more, update_self, counted.linked op link]
  · intro none
    rw [count, more, update_self, counted.unlinked op none]
  · intro absent
    have zero := counted.unborn op ((births op).mp absent)
    omega
  · intro _
    rw [same.2.2]
    exact counted.live op (by omega)
  · intro zero
    omega

end

theorem Refs.Counted.attach (counted : refs.Counted absent holders) (live : 0 < refs.refCount op)
    (first : refs.response op = none) (request : ¬refs.Linked op) (fresh : ¬refs.Linked operation)
    (flat : refs.response operation = none) (differs : operation ≠ op)
    (fewer : holders = update holders' operation (holders' operation + 1)) :
    (refs.attach op operation).Counted absent holders' := by
  subst fewer
  have links : ∀ other, (refs.attach op operation).Linked other ↔ refs.Linked other ∨ other = operation := by
    intro other
    simp only [Refs.Linked, Refs.attach, update_apply]
    constructor
    · rintro ⟨one, link⟩
      grind
    · rintro (⟨one, link⟩ | same)
      · exact ⟨one, by grind⟩
      · exact ⟨op, by grind⟩
  constructor
  · intro other some
    change refs.refCount other = _
    rcases (links other).mp some with before | same
    · have kept : other ≠ operation := fun same => fresh (same ▸ before)
      rw [counted.linked other before, update_of_ne kept]
    · rw [same, counted.unlinked operation fresh, update_self]
  · intro other none
    change refs.refCount other = _
    obtain ⟨before, kept⟩ := not_or.mp (fun some => none ((links other).mpr some))
    rw [counted.unlinked other before, update_of_ne kept]
  · exact counted.unborn
  · exact counted.live
  · exact counted.dead
  · intro other counts
    change refs.refCount other = 0 at counts
    have kept : other ≠ op := by
      rintro rfl
      omega
    change update refs.response op (some operation) other = none
    rw [update_of_ne kept]
    exact counted.released other counts
  · intro one other message link also
    have missing : ∀ request, refs.response request ≠ some operation := fun request link =>
      fresh ⟨request, link⟩
    have before := counted.unique one other message
    simp only [Refs.attach, update_apply] at link also
    grind
  · intro one message link
    have missing : ∀ other, refs.response other ≠ some op := fun other link => request ⟨other, link⟩
    have before := counted.flat one message
    simp only [Refs.attach, update_apply] at link ⊢
    grind
  · exact counted.never

theorem Refs.Counted.detach (counted : refs.Counted absent holders) (last : refs.refCount op = 1)
    (attached : refs.response op = some operation) (held : 0 < holders op)
    (moved : holders' = update (update holders op 0) operation (holders operation + 1)) :
    Refs.Counted ⟨update refs.refCount op 0, update refs.response op none,
      update refs.freed op (refs.freed op + 1), refs.badUnrefs⟩ absent holders' := by
  have linked : refs.Linked operation := ⟨op, attached⟩
  have differs : operation ≠ op := by
    rintro rfl
    rw [counted.flat _ _ attached] at attached
    cases attached
  have free : ¬refs.Linked op := fun link => by
    have count := counted.linked op link
    omega
  have born : ¬absent op := fun absent => by
    have zero := counted.unborn op absent
    omega
  have links : ∀ other, Refs.Linked ⟨update refs.refCount op 0, update refs.response op none,
      update refs.freed op (refs.freed op + 1), refs.badUnrefs⟩ other ↔
        refs.Linked other ∧ other ≠ operation := by
    intro other
    have once := counted.unique op
    simp only [Refs.Linked, update_apply]
    constructor
    · rintro ⟨one, link⟩
      grind
    · rintro ⟨⟨one, link⟩, kept⟩
      exact ⟨one, by grind⟩
  constructor
  · intro other some
    change update refs.refCount op 0 other = _
    obtain ⟨before, kept⟩ := (links other).mp some
    have alive : other ≠ op := fun same => free (same ▸ before)
    rw [update_of_ne alive, counted.linked other before, moved, update_of_ne kept, update_of_ne alive]
  · intro other none
    change update refs.refCount op 0 other = _
    rw [moved]
    by_cases same : other = operation
    · rw [same, update_of_ne differs, update_self, counted.linked operation linked]
    · rw [update_of_ne same]
      by_cases own : other = op
      · rw [own, update_self, update_self]
      · rw [update_of_ne own, update_of_ne own]
        exact counted.unlinked other fun some => none ((links other).mpr ⟨some, same⟩)
  · intro other absent
    have kept : other ≠ op := fun same => born (same ▸ absent)
    simp only [update_of_ne kept]
    exact counted.unborn other absent
  · intro other counts
    by_cases own : other = op
    · rw [own] at counts
      exact absurd (update_self _ _ _) counts
    · simp only [update_of_ne own] at counts ⊢
      exact counted.live other counts
  · intro other present counts
    by_cases own : other = op
    · simp only [own, update_self]
      rw [counted.live op (by omega)]
    · simp only [update_of_ne own] at counts ⊢
      exact counted.dead other present counts
  · intro other counts
    by_cases own : other = op
    · simp only [own, update_self]
    · simp only [update_of_ne own] at counts ⊢
      exact counted.released other counts
  · intro one other message link also
    have before := counted.unique one other message
    simp only [update_apply] at link also
    grind
  · intro one message link
    have before := counted.flat one message
    simp only [update_apply] at link ⊢
    grind
  · exact counted.never

theorem Refs.Counted.unref_many (counted : refs.Counted absent holders) (depth : ℕ)
    (several : 1 < refs.refCount op) (fewer : holders = update holders' op (holders' op + 1)) :
    (gbOperationUnref (depth + 1) refs op).Counted absent holders' := by
  subst fewer
  have linked := counted.linked op
  have unlinked := counted.unlinked op
  rw [update_self] at linked unlinked
  rw [gbOperationUnref_many depth refs several]
  refine counted.change _ op rfl rfl ?_ ?_ ?_ ?_ ?_ ?_
  · intro other differs
    exact ⟨update_of_ne differs _ _, rfl, (update_of_ne differs _ _).symm, Iff.rfl⟩
  · intro link
    simp only [update_self, linked link]
    omega
  · intro none
    simp only [update_self, unlinked none]
    omega
  · intro absent
    have zero := counted.unborn op absent
    omega
  · exact fun _ => counted.live op (by omega)
  · intro zero
    simp only [update_self] at zero
    omega

theorem Refs.Counted.unref_last (counted : refs.Counted absent holders) (depth : ℕ) (last : refs.refCount op = 1)
    (alone : refs.response op = none) (fewer : holders = update holders' op (holders' op + 1)) :
    (gbOperationUnref (depth + 1) refs op).Counted absent holders' := by
  subst fewer
  have linked := counted.linked op
  have unlinked := counted.unlinked op
  rw [update_self] at linked unlinked
  rw [gbOperationUnref_last depth refs last alone]
  refine counted.change _ op rfl rfl ?_ ?_ ?_ ?_ ?_ ?_
  · intro other differs
    exact ⟨update_of_ne differs _ _, update_of_ne differs _ _, (update_of_ne differs _ _).symm, Iff.rfl⟩
  · intro link
    have count := linked link
    omega
  · intro none
    have count := unlinked none
    simp only [update_self]
    omega
  · intro absent
    have zero := counted.unborn op absent
    omega
  · intro counts
    exact absurd (update_self _ _ _) counts
  · intro _
    simp only [update_self]
    rw [counted.live op (by omega)]
    exact ⟨rfl, alone⟩

theorem gbOperationUnref_detached (depth : ℕ) (last : refs.refCount op = 1)
    (attached : refs.response op = some operation) (flat : refs.response operation = none) (differs : operation ≠ op)
    (live : refs.refCount operation ≠ 0) :
    gbOperationUnref (depth + 2) refs op = gbOperationUnref (depth + 1)
      ⟨update refs.refCount op 0, update refs.response op none,
        update refs.freed op (refs.freed op + 1), refs.badUnrefs⟩ operation := by
  rw [gbOperationUnref_response_last (depth + 1) last attached]
  have alone : update refs.response op none operation = none := by
    rw [update_of_ne differs]
    exact flat
  by_cases several : 1 < refs.refCount operation
  · have before : 1 < update refs.refCount op 0 operation := by
      rw [update_of_ne differs]
      exact several
    rw [gbOperationUnref_many depth _ before, gbOperationUnref_many depth _ before]
  · have before : update refs.refCount op 0 operation = 1 := by
      rw [update_of_ne differs]
      omega
    rw [gbOperationUnref_last depth { refs with refCount := update refs.refCount op 0 } before flat,
      gbOperationUnref_last depth _ before alone]
    simp only [update_of_ne differs, update_of_ne (Ne.symm differs)]
    rw [update_comm differs]

theorem Refs.Counted.unref (counted : refs.Counted absent holders)
    (fewer : holders = update holders' op (holders' op + 1)) :
    (gbOperationUnref unrefDepth refs op).Counted absent holders' := by
  have held : 0 < holders op := by
    rw [fewer, update_self]
    omega
  have positive := counted.pos held
  by_cases several : 1 < refs.refCount op
  · exact counted.unref_many 1 several fewer
  · have last : refs.refCount op = 1 := by omega
    cases attached : refs.response op with
    | none => exact counted.unref_last 1 last attached fewer
    | some operation =>
      have flat := counted.flat op operation attached
      have differs : operation ≠ op := by
        rintro rfl
        rw [flat] at attached
        cases attached
      have linked := counted.linked operation ⟨op, attached⟩
      have none_left : holders' op = 0 := by
        have free : ¬refs.Linked op := fun link => by
          have count := counted.linked op link
          omega
        have count := counted.unlinked op free
        rw [fewer, update_self] at count
        omega
      change (gbOperationUnref (0 + 2) refs op).Counted absent holders'
      rw [gbOperationUnref_detached 0 last attached flat differs (by omega)]
      have detached := counted.detach last attached held rfl
      have moved : update (update holders op 0) operation (holders operation + 1) =
          update holders' operation (holders' operation + 1) := by
        rw [fewer, update_idem, update_of_ne differs, ← none_left, update_eq_self]
      rw [moved] at detached
      by_cases more : 1 < refs.refCount operation
      · apply detached.unref_many 0 _ rfl
        simp only [update_of_ne differs]
        exact more
      · apply detached.unref_last 0 _ _ rfl
        · simp only [update_of_ne differs]
          omega
        · simp only [update_of_ne differs]
          exact flat

end Counted

end Phabos.Greybus
