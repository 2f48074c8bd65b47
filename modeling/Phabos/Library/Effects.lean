import Mathlib.Data.List.Basic

namespace Phabos.Library

section Effects
variable {State Exit : Type} {α β : Type}

/-- The end of the code from a state: what it returns or how it leaves, and the state then -/
def runFrom (code : ExceptT Exit (StateM State) α) (state : State) : Except Exit α × State := code.run.run state

@[simp] theorem runFrom_get (state : State) :
    runFrom (get : ExceptT Exit (StateM State) State) state = (.ok state, state) := rfl

@[simp] theorem runFrom_modify (change : State → State) (state : State) :
    runFrom (modify change : ExceptT Exit (StateM State) Unit) state = (.ok (), change state) := rfl

theorem runFrom_bind (first : ExceptT Exit (StateM State) α) (next : α → ExceptT Exit (StateM State) β)
    (state : State) :
    runFrom (first >>= next) state =
      match runFrom first state with
      | (.ok value, middle) => runFrom (next value) middle
      | (.error exit, middle) => (.error exit, middle) := by
  unfold runFrom
  rw [ExceptT.run_bind, StateT.run_bind]
  cases ended : first.run.run state with
  | mk result middle =>
    cases result with
    | ok value => rfl
    | error exit => rfl

theorem runFrom_tryCatch (code : ExceptT Exit (StateM State) α) (handler : Exit → ExceptT Exit (StateM State) α)
    (state : State) :
    runFrom (tryCatch code handler) state =
      match runFrom code state with
      | (.ok value, middle) => (.ok value, middle)
      | (.error exit, middle) => runFrom (handler exit) middle := by
  unfold runFrom
  show (code.run >>= fun result => match result with
    | .ok value => pure (.ok value)
    | .error exit => (handler exit).run).run state = _
  rw [StateT.run_bind]
  cases ended : code.run.run state with
  | mk result middle =>
    cases result with
    | ok value => rfl
    | error exit => rfl

/-- However the code ends, the property of the state still holds if it held before. -/
def Keeps (holds : State → Prop) (code : ExceptT Exit (StateM State) α) : Prop :=
  ∀ state, holds state → holds (runFrom code state).2

/-- The code leaves in this way, or the property of the state holds at its end. -/
def Leaves (exit : Exit) (holds : State → Prop) (code : ExceptT Exit (StateM State) α) : Prop :=
  ∀ state, (runFrom code state).1 = .error exit ∨ holds (runFrom code state).2

/-- The code does not return. -/
def Ends (code : ExceptT Exit (StateM State) α) : Prop := ∀ state, ∃ exit, (runFrom code state).1 = .error exit

variable {holds : State → Prop} {exit : Exit}

theorem keeps_pure (value : α) : Keeps holds (pure value : ExceptT Exit (StateM State) α) := fun _ held => held

theorem keeps_throw (exit : Exit) : Keeps holds (throw exit : ExceptT Exit (StateM State) α) := fun _ held => held

theorem keeps_get : Keeps holds (get : ExceptT Exit (StateM State) State) := fun _ held => held

theorem keeps_modify {change : State → State} (kept : ∀ state, holds state → holds (change state)) :
    Keeps holds (modify change : ExceptT Exit (StateM State) Unit) := kept

variable {next : α → ExceptT Exit (StateM State) β}

variable {first : ExceptT Exit (StateM State) α}

theorem Keeps.bind
    (kept : Keeps holds first) (later : ∀ value, Keeps holds (next value)) : Keeps holds (first >>= next) := by
  intro state held
  have middle := kept state held
  rw [runFrom_bind]
  cases ended : runFrom first state with
  | mk result after =>
    rw [ended] at middle
    cases result with
    | ok value => exact later value after middle
    | error exit => exact middle

/-- What follows code that does not return is not reached. -/
theorem Keeps.bind_of_ends (kept : Keeps holds first) (ends : Ends first) :
    Keeps holds (first >>= next) := by
  intro state held
  have middle := kept state held
  obtain ⟨exit, left⟩ := ends state
  rw [runFrom_bind]
  cases ended : runFrom first state with
  | mk result after =>
    rw [ended] at middle left
    cases left
    exact middle

theorem Keeps.tryCatch {code : ExceptT Exit (StateM State) α} {handler : Exit → ExceptT Exit (StateM State) α}
    (kept : Keeps holds code) (caught : ∀ exit, Keeps holds (handler exit)) :
    Keeps holds (tryCatch code handler) := by
  intro state held
  have middle := kept state held
  rw [runFrom_tryCatch]
  cases ended : runFrom code state with
  | mk result after =>
    rw [ended] at middle
    cases result with
    | ok value => exact middle
    | error exit => exact caught exit after middle

theorem keeps_forM {Item : Type} {body : Item → ExceptT Exit (StateM State) PUnit} (kept : ∀ item, Keeps holds (body item))
    (items : List Item) : Keeps holds (items.forM body) := by
  induction items with
  | nil => exact keeps_pure PUnit.unit
  | cons item rest ih => exact (kept item).bind fun _ => ih

/-- What keeps the property may follow. -/
theorem Leaves.bind (leaves : Leaves exit holds first) (later : ∀ value, Keeps holds (next value)) :
    Leaves exit holds (first >>= next) := by
  intro state
  have middle := leaves state
  rw [runFrom_bind]
  cases ended : runFrom first state with
  | mk result after =>
    rw [ended] at middle
    cases result with
    | ok value =>
      cases middle with
      | inl left => cases left
      | inr held => exact Or.inr (later value after held)
    | error other =>
      cases middle with
      | inl left =>
        injection left with same
        exact Or.inl (congrArg _ same)
      | inr held => exact Or.inr held

/-- Code that returns may come before. -/
theorem Leaves.after
    (returns : ∀ state, ∃ value, (runFrom first state).1 = .ok value ∧ Leaves exit holds (next value)) :
    Leaves exit holds (first >>= next) := by
  intro state
  obtain ⟨value, returned, later⟩ := returns state
  rw [runFrom_bind]
  cases ended : runFrom first state with
  | mk result after =>
    rw [ended] at returned
    cases returned
    exact later after

end Effects

end Phabos.Library
