import Mathlib.Data.List.Basic
import Mathlib.Order.RelClasses

namespace Phabos.Library
open Option List

section Run
variable {State Action : Type*}

/-- A run performs its actions in order and ends at the first action that is not enabled. -/
def run (step : State → Action → Option State) : State → List Action → Option State
  | state, [] => some state
  | state, action :: rest => (step state action).bind fun next => run step next rest

section
variable (step : State → Action → Option State) (state : State)

@[simp] theorem run_nil :
    run step state [] = some state := rfl

@[simp] theorem run_cons (action : Action) (rest : List Action) :
    run step state (action :: rest) = (step state action).bind fun next => run step next rest := rfl

theorem run_append (first last : List Action) :
    run step state (first ++ last) = (run step state first).bind fun middle => run step middle last := by
  induction first generalizing state with
  | nil => rfl
  | cons action rest ih =>
    rw [cons_append, run_cons, run_cons, bind_assoc]
    exact congrArg _ (funext fun next => ih next)

end

/-- A run that ends with a value of a function ends in a state that has it. -/
theorem exists_final {Value : Type*} {ended : Option State} {property : State → Prop} (f : State → Value) (value : Value)
    (seen : ended.map f = some value)
    (holds : ∀ final, ended = some final → f final = value → property final) :
    ∃ final, ended = some final ∧ property final := by
  obtain ⟨final, ran, same⟩ := map_eq_some_iff.mp seen
  exact ⟨final, ran, holds final ran same⟩

/-- Each step of the run meets the guard in the state before it. -/
def Guarded (step : State → Action → Option State) (guard : State → Action → Prop) :
    State → List Action → Prop
  | _, [] => True
  | state, action :: rest =>
    guard state action ∧ ∀ next, step state action = some next → Guarded step guard next rest

variable {step : State → Action → Option State}

variable {guard : State → Action → Prop}

/-- A guarded first step and a guarded rest give a guarded run. -/
theorem Guarded.cons {state next : State} {action : Action} {rest : List Action} (first : guard state action)
    (stepped : step state action = some next) (guarded : Guarded step guard next rest) :
    Guarded step guard state (action :: rest) := by
  refine ⟨first, fun other same => ?_⟩
  obtain rfl : next = other := some.inj (stepped.symm.trans same)
  exact guarded

variable {actions : List Action} {state : State}

/-- A run that meets two guards meets both at once. -/
theorem Guarded.and {first second : State → Action → Prop} (one : Guarded step first state actions)
    (two : Guarded step second state actions) :
    Guarded step (fun state action => first state action ∧ second state action) state actions := by
  induction actions generalizing state with
  | nil => trivial
  | cons action rest ih =>
    exact ⟨⟨one.1, two.1⟩, fun next stepped => ih (one.2 next stepped) (two.2 next stepped)⟩

/-- A guard that all actions meet in every state is met along the run. -/
theorem Guarded.of_forall (met : ∀ action ∈ actions, ∀ state, guard state action) :
    Guarded step guard state actions := by
  induction actions generalizing state with
  | nil => trivial
  | cons action rest ih =>
    refine ⟨met action mem_cons_self state, fun next _ => ih fun other there => ?_⟩
    exact met other (mem_cons_of_mem _ there)

/-- A run that meets one guard meets another one that follows from it and an invariant. -/
theorem Guarded.imp {first second : State → Action → Prop} (invariant : State → Prop)
    (each : ∀ state action, invariant state → first state action → second state action ∧ ∀ next, step state action = some next → invariant next)
    (holds : invariant state) (guarded : Guarded step first state actions) : Guarded step second state actions := by
  induction actions generalizing state with
  | nil => trivial
  | cons action rest ih =>
    obtain ⟨here, kept⟩ := each state action holds guarded.1
    exact ⟨here, fun next stepped => ih (kept next stepped) (guarded.2 next stepped)⟩

/-- Whether a run is guarded can be decided when the guard can. -/
instance Guarded.decidable [∀ state action, Decidable (guard state action)] :
    ∀ (state : State) (actions : List Action), Decidable (Guarded step guard state actions)
  | _, [] => inferInstanceAs (Decidable True)
  | state, action :: rest =>
    match stepped : step state action with
    | none => decidable_of_iff (guard state action) (by simp [Guarded, stepped])
    | some next =>
      have := Guarded.decidable next rest
      decidable_of_iff (guard state action ∧ Guarded step guard next rest) (by simp [Guarded, stepped])

/-- A run that meets a stronger guard is guarded. -/
theorem Guarded.mono {strong : State → Action → Prop}
    (weaker : ∀ state action, strong state action → guard state action) (guarded : Guarded step strong state actions) :
    Guarded step guard state actions := by
  induction actions generalizing state with
  | nil => trivial
  | cons action rest ih => exact ⟨weaker state action guarded.1, fun next stepped => ih (guarded.2 next stepped)⟩

/-- A property of the steps so far and the state that every guarded step keeps holds at the end of every guarded run. -/
theorem run_history_of_guarded (invariant : List Action → State → Prop) {state final : State}
    (holds : invariant [] state) (guarded : Guarded step guard state actions) (ran : run step state actions = some final)
    (kept : ∀ {past state action next}, invariant past state → guard state action → step state action = some next →
      invariant (past ++ [action]) next) : invariant actions final := by
  induction actions generalizing state invariant with
  | nil =>
    obtain rfl := some.inj ran
    exact holds
  | cons action rest ih =>
    obtain ⟨next, stepped, ran⟩ := bind_eq_some_iff.mp ran
    exact ih (fun past => invariant (action :: past)) (kept holds guarded.1 stepped) (guarded.2 next stepped) ran kept

/-- A property that every guarded step keeps holds at the end of every guarded run. -/
theorem run_invariant_of_guarded (invariant : State → Prop) {state final : State} (holds : invariant state)
    (guarded : Guarded step guard state actions) (ran : run step state actions = some final)
    (kept : ∀ {state action next}, invariant state → guard state action → step state action = some next →
      invariant next) : invariant final :=
  run_history_of_guarded (fun _ => invariant) holds guarded ran kept

/-- A property that every step keeps holds at the end of every run. -/
theorem run_invariant (invariant : State → Prop) {state final : State} (holds : invariant state)
    (ran : run step state actions = some final)
    (kept : ∀ {state action next}, invariant state → step state action = some next → invariant next) :
    invariant final :=
  run_invariant_of_guarded invariant holds (.of_forall fun _ _ _ => trivial) ran
    fun before (_ : True) stepped => kept before stepped

/-- A property that a step keeps when it meets the guard, and that is lost for ever otherwise, holds at the end of
exactly the guarded runs. -/
theorem run_iff_guarded (step : State → Action → Option State) (guard : State → Action → Prop)
    (invariant property : State → Prop)
    (each : ∀ state action next, invariant state → step state action = some next →
      invariant next ∧ (property next ↔ property state ∧ guard state action))
    (state final : State) (actions : List Action) (holds : invariant state)
    (ran : run step state actions = some final) :
    property final ↔ property state ∧ Guarded step guard state actions := by
  induction actions generalizing state with
  | nil =>
    obtain rfl := some.inj ran
    exact (and_iff_left trivial).symm
  | cons action rest ih =>
    obtain ⟨next, stepped, ran⟩ := bind_eq_some_iff.mp ran
    obtain ⟨kept, first⟩ := each state action next holds stepped
    rw [ih next kept ran, first, and_assoc]
    refine and_congr_right fun _ => and_congr_right fun _ => ?_
    constructor
    · intro later other same
      obtain rfl : next = other := some.inj (stepped.symm.trans same)
      exact later
    · intro later
      exact later next stepped

/-- A property that a step gives on exactly when it meets the guard holds in every state reached by exactly the guarded
runs. -/
theorem reached_iff_guarded (step : State → Action → Option State) (allowed guard : State → Action → Prop)
    (invariant property : State → Prop)
    (each : ∀ state action next, invariant state → allowed state action → step state action = some next →
      invariant next ∧ (property state → (property next ↔ guard state action)))
    (state final : State) (actions : List Action) (holds : invariant state) (starts : property state)
    (within : Guarded step allowed state actions) (ran : run step state actions = some final) :
    (∀ first, first <+: actions → ∀ middle, run step state first = some middle → property middle) ↔
      Guarded step guard state actions := by
  induction actions generalizing state with
  | nil =>
    refine iff_of_true (fun first front middle ran => ?_) trivial
    obtain rfl := prefix_nil.mp front
    obtain rfl := some.inj ran
    exact starts
  | cons action rest ih =>
    obtain ⟨next, stepped, later⟩ := bind_eq_some_iff.mp ran
    obtain ⟨kept, first⟩ := each state action next holds within.1 stepped
    constructor
    · intro always
      have here : property next := by
        refine always [action] (prefix_append [action] rest) next ?_
        rw [run_cons, stepped]
        rfl
      refine Guarded.cons ((first starts).mp here) stepped ?_
      refine (ih next kept here (within.2 next stepped) later).mp fun front there middle reached => ?_
      refine always (action :: front) (cons_prefix_cons.mpr ⟨rfl, there⟩) middle ?_
      rw [run_cons, stepped]
      exact reached
    · intro guarded front there middle reached
      cases front with
      | nil =>
        obtain rfl := some.inj reached
        exact starts
      | cons other front =>
        obtain ⟨rfl, behind⟩ := cons_prefix_cons.mp there
        rw [run_cons, stepped] at reached
        have here := (first starts).mpr guarded.1
        exact (ih next kept here (within.2 next stepped) later).mpr (guarded.2 next stepped) front behind middle reached

/-- Guarded steps that are enabled and keep a relation in lockstep give a complete related run. -/
theorem run_simulation_of_guarded {Abstract : Type*} (step : State → Action → Option State)
    (spec : Abstract → Action → Abstract) (guard : State → Action → Prop)
    (related : State → Abstract → Prop)
    (enabled : ∀ state abstract action, related state abstract → guard state action →
      ∃ next, step state action = some next ∧ related next (spec abstract action))
    (state : State) (abstract : Abstract) (actions : List Action) (holds : related state abstract)
    (guarded : Guarded step guard state actions) :
    ∃ final, run step state actions = some final ∧ related final (actions.foldl spec abstract) := by
  induction actions generalizing state abstract with
  | nil => exact ⟨state, rfl, holds⟩
  | cons action rest ih =>
    obtain ⟨next, stepped, kept⟩ := enabled state abstract action holds guarded.1
    obtain ⟨final, ran, last⟩ := ih next (spec abstract action) kept (guarded.2 next stepped)
    exact ⟨final, by simp only [run_cons, stepped, bind_some, ran], last⟩

/-- Guarded steps that are always enabled give a complete run. -/
theorem run_total_of_guarded (step : State → Action → Option State)
    (guard : State → Action → Prop) (invariant : State → Prop)
    (enabled : ∀ state action, invariant state → guard state action →
      ∃ next, step state action = some next ∧ invariant next)
    (state : State) (actions : List Action) (holds : invariant state)
    (guarded : Guarded step guard state actions) :
    ∃ final, run step state actions = some final ∧ invariant final :=
  run_simulation_of_guarded step (fun same _ => same) guard (fun state (_ : Unit) => invariant state)
    (fun state _ action => enabled state action) state () actions holds guarded

/-- An action that lowers a rank is not enabled any more after some repetitions. -/
theorem run_replicate_of_rank {Rank : Type*} [Preorder Rank] [WellFoundedLT Rank]
    (step : State → Action → Option State) (action : Action) (invariant : State → Prop) (rank : State → Rank)
    (lower : ∀ state next, invariant state → step state action = some next → invariant next ∧ rank next < rank state)
    (state : State) (holds : invariant state) :
    ∃ steps final, run step state (replicate steps action) = some final ∧ invariant final ∧
      step final action = none := by
  induction level : rank state using WellFoundedLT.induction generalizing state with
  | ind level ih =>
    cases stepped : step state action with
    | none => exact ⟨0, state, rfl, holds, stepped⟩
    | some next =>
      obtain ⟨kept, less⟩ := lower state next holds stepped
      obtain ⟨steps, final, ran, last⟩ := ih _ (level ▸ less) next kept rfl
      refine ⟨steps + 1, final, ?_, last⟩
      rw [replicate_succ, run_cons, stepped]
      exact ran

/-- Two machines in lockstep are faithful to each other as long as every action meets a guard on the second one, when they
are related before an action and faithful after it only if it meets the guard. -/
theorem faithful_iff_guarded {Concrete Abstract : Type*} (step : Concrete → Action → Concrete)
    (spec : Abstract → Action → Abstract) (guard : Abstract → Action → Prop)
    (related faithful : Concrete → Abstract → Prop)
    (given : ∀ concrete abstract, related concrete abstract → faithful concrete abstract)
    (each : ∀ concrete abstract action, related concrete abstract →
      (faithful (step concrete action) (spec abstract action) → guard abstract action) ∧
        (guard abstract action → related (step concrete action) (spec abstract action)))
    (concrete : Concrete) (abstract : Abstract) (actions : List Action) (holds : related concrete abstract) :
    (∀ first, first <+: actions → faithful (first.foldl step concrete) (first.foldl spec abstract)) ↔
      ∀ first action, first ++ [action] <+: actions → guard (first.foldl spec abstract) action := by
  induction actions generalizing concrete abstract with
  | nil =>
    refine iff_of_true (fun first front => ?_) fun first action front => ?_
    · obtain rfl := prefix_nil.mp front
      exact given concrete abstract holds
    · exact absurd (prefix_nil.mp front) (append_ne_nil_of_right_ne_nil first (cons_ne_nil action []))
  | cons action rest ih =>
    obtain ⟨needed, kept⟩ := each concrete abstract action holds
    constructor
    · intro always
      have here := needed (always [action] (prefix_append [action] rest))
      have later := (ih _ _ (kept here)).mp fun first front =>
        always (action :: first) (cons_prefix_cons.mpr ⟨rfl, front⟩)
      intro first other front
      cases first with
      | nil =>
        obtain ⟨rfl, -⟩ := cons_prefix_cons.mp front
        exact here
      | cons first before =>
        obtain ⟨rfl, there⟩ := cons_prefix_cons.mp front
        exact later before other there
    · intro guarded first front
      have here := guarded [] action (prefix_append [action] rest)
      cases first with
      | nil => exact given concrete abstract holds
      | cons other first =>
        obtain ⟨rfl, there⟩ := cons_prefix_cons.mp front
        refine (ih _ _ (kept here)).mpr (fun before next behind => ?_) first there
        exact guarded (other :: before) next (cons_prefix_cons.mpr ⟨rfl, behind⟩)

end Run

end Phabos.Library
