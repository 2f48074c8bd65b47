import Phabos.Construction.Greybus.Registration

namespace Phabos.Greybus.Registration
open Function List Option

/-- The cport was free and is now in the map, with the driver and a worker that runs, and the handlers of the driver
are the same and sorted. -/
structure Registered (before after : Bus) (cportid : BitVec 32) (driver : ℕ) : Prop where
  absent : before.cportMap cportid = none
  present : ∃ cport task, after.cportMap = update before.cportMap cportid (some cport) ∧ cport.id = cportid ∧
    cport.driver = driver ∧ cport.thread = some task ∧ task ∈ after.workers
  sorted : ∀ handlers, (after.driver driver).opHandlers = some handlers →
    (handlers.take (after.driver driver).opHandlersCount).Pairwise fun first second => first.type ≤ second.type

/-- Registration is all or nothing. -/
structure Right (outcomes : Outcomes) (before : Bus) (cportid : BitVec 32) (driver : Option ℕ)
    (result : Int × Bus) : Prop where
  zero : result.1 = 0 ↔ ∃ registered, driver = some registered ∧ Registered before result.2 cportid registered
  unchanged : result.1 ≠ 0 → result.2.cportMap = before.cportMap
  undone : result.1 ≠ 0 → outcomes.init = 0 → ∀ registered later, driver = some registered →
    result.2.calls = before.calls ++ .init registered cportid :: later →
    (before.driver registered).hasExit = true → .exit registered cportid ∈ later
  second : ∀ registered, driver = some registered → before.cportMap cportid ≠ none → result = (- EEXIST, before)

/-- The call gets past the `init` of the driver. -/
def PastInit (outcomes : Outcomes) (greybus : Bus) (cportid : BitVec 32) (driver : ℕ) : Prop :=
  greybus.cportMap cportid = none ∧
    ¬((greybus.driver driver).opHandlers = none ∧ 0 < (greybus.driver driver).opHandlersCount) ∧
    ((greybus.driver driver).hasInit = true → outcomes.init = 0)

/-- Past the `init`, both resources are there, or the cport is not and there is nothing to undo, or the worker is not
and the variable that is returned happens to hold an error. -/
def Undoes (outcomes : Outcomes) (greybus : Bus) (cportid : BitVec 32) (driver : Option ℕ) : Prop :=
  ∀ registered, driver = some registered → PastInit outcomes greybus cportid registered →
    if outcomes.kzalloc then
      outcomes.taskRun = none → (greybus.driver registered).hasInit = false ∧ outcomes.retval ≠ 0
    else (greybus.driver registered).hasInit = false ∨ (greybus.driver registered).hasExit = false

theorem enomem_ne_zero : - ENOMEM ≠ 0 := by decide

theorem not_registered {before after : Bus} {cportid : BitVec 32} {driver : ℕ}
    (same : after.cportMap = before.cportMap) : ¬Registered before after cportid driver := by
  rintro ⟨absent, ⟨cport, task, present, -⟩, -⟩
  have added := congrFun present cportid
  rw [same, absent, update_self] at added
  cases added

section Right
variable {outcomes : Outcomes} {before : Bus} {cportid : BitVec 32} {driver : ℕ} {result : Int × Bus}

theorem Right.of_error (error : result.1 ≠ 0) (same : result.2.cportMap = before.cportMap)
    (undone : outcomes.init = 0 → ∀ later, result.2.calls = before.calls ++ .init driver cportid :: later →
      (before.driver driver).hasExit = true → .exit driver cportid ∈ later)
    (second : before.cportMap cportid ≠ none → result = (- EEXIST, before)) :
    Right outcomes before cportid (some driver) result where
  zero := by
    refine ⟨fun zero => absurd zero error, ?_⟩
    rintro ⟨registered, -, there⟩
    exact absurd there (not_registered same)
  unchanged := fun _ => same
  undone := by
    intro _ init registered later found calls exit
    obtain rfl := some.inj found
    exact undone init later calls exit
  second := fun _ _ => second

theorem calls_ne {after : Bus} (same : after.calls = before.calls) (later : List DriverCall) :
    after.calls ≠ before.calls ++ .init driver cportid :: later := by
  rw [same]
  intro calls
  exact absurd (self_eq_append_right.mp calls) (cons_ne_nil _ _)

end Right

section Registration
variable (qsort : Qsort gbCompareHandlers) (outcomes : Outcomes) (greybus : Bus) (cportid : BitVec 32)

theorem sortHandlers_sorted (driver : GbDriver) {handlers : List GbOperationHandler}
    (found : (driver.sortHandlers qsort).opHandlers = some handlers) :
    (handlers.take (driver.sortHandlers qsort).opHandlersCount).Pairwise
      fun first second => first.type ≤ second.type := by
  unfold GbDriver.sortHandlers at found ⊢
  cases table : driver.opHandlers with
  | none => rw [table] at found; cases found
  | some old =>
    rw [table] at found
    obtain rfl := some.inj found
    have sorted := qsort.sorted (old.take driver.opHandlersCount)
    have length := (qsort.perm (old.take driver.opHandlersCount)).length_eq
    have kept : ((qsort.sort (old.take driver.opHandlersCount) ++ old.drop driver.opHandlersCount).take
        driver.opHandlersCount).Pairwise fun first second => gbCompareHandlers first second ≤ 0 := by
      by_cases whole : old.length ≤ driver.opHandlersCount
      · rw [drop_eq_nil_of_le whole, append_nil]
        exact sorted.take
      · rw [take_append_of_le_length (by rw [length, length_take]; omega)]
        exact sorted.take
    apply kept.imp
    intro first second le
    unfold gbCompareHandlers at le
    rw [BitVec.le_def]
    omega

/-- The bus when the cport is allocated: the `init` of the driver has been called and its handlers are sorted. -/
structure Called (driver : ℕ) (called : Bus) : Prop where
  cportMap : called.cportMap = greybus.cportMap
  object : called.driver driver = (greybus.driver driver).sortHandlers qsort
  calls : called.calls =
    if (greybus.driver driver).hasInit then greybus.calls ++ [.init driver cportid] else greybus.calls
  init : (greybus.driver driver).hasInit = true → outcomes.init = 0

variable {qsort outcomes greybus cportid}

theorem Called.undone {driver : ℕ} {called : Bus} (same : Called qsort outcomes greybus cportid driver called)
    {later : List DriverCall}
    (calls : called.calls ++ [.exit driver cportid] = greybus.calls ++ .init driver cportid :: later) :
    .exit driver cportid ∈ later := by
  rw [same.calls] at calls
  split at calls
  · rw [append_assoc, append_cancel_left_eq] at calls
    have tail := (cons.inj calls).2
    rw [← tail]
    exact mem_singleton_self _
  · rw [append_cancel_left_eq] at calls
    cases calls

/-- When a registration whose driver was called is right. -/
theorem Called.right_iff {driver : ℕ} {called : Bus} (same : Called qsort outcomes greybus cportid driver called)
    (absent : greybus.cportMap cportid = none) (retval : Int)
    (value : retval = if (greybus.driver driver).hasInit then outcomes.init else outcomes.retval) :
    Right outcomes greybus cportid (some driver) (addCport outcomes called cportid driver retval) ↔
      if outcomes.kzalloc then
        outcomes.taskRun = none → (greybus.driver driver).hasInit = false ∧ outcomes.retval ≠ 0
      else (greybus.driver driver).hasInit = false ∨ (greybus.driver driver).hasExit = false := by
  have second : greybus.cportMap cportid ≠ none →
      addCport outcomes called cportid driver retval = (- EEXIST, greybus) := fun there => absurd absent there
  unfold addCport at second ⊢
  cases memory : outcomes.kzalloc with
  | false =>
    rw [memory, if_neg Bool.false_ne_true] at second
    rw [if_neg Bool.false_ne_true, if_neg Bool.false_ne_true]
    constructor
    · intro right
      cases init : (greybus.driver driver).hasInit with
      | false => exact Or.inl rfl
      | true =>
        right
        rw [← Bool.not_eq_true]
        intro exit
        have calls := same.calls
        rw [init, if_pos rfl] at calls
        exact absurd (right.undone enomem_ne_zero (same.init init) driver [] rfl calls exit) not_mem_nil
    · intro nothing
      refine Right.of_error enomem_ne_zero same.cportMap (fun _ later calls exit => ?_) second
      cases nothing with
      | inl init =>
        have calls' := same.calls
        rw [init, if_neg Bool.false_ne_true] at calls'
        exact absurd calls (calls_ne calls' later)
      | inr none => rw [none] at exit; cases exit
  | true =>
    rw [memory, if_pos rfl] at second
    rw [if_pos rfl, if_pos rfl]
    have exits : (called.driver driver).hasExit = (greybus.driver driver).hasExit := by
      rw [same.object]
      rfl
    cases ran : outcomes.taskRun with
    | some task =>
      rw [ran] at second
      refine ⟨fun _ => nofun, fun _ => ?_⟩
      refine ⟨Iff.intro (fun _ => ⟨driver, rfl, absent, ?_, ?_⟩) (fun _ => rfl), fun error => absurd rfl error,
        fun error => absurd rfl error, fun _ _ => second⟩
      · exact ⟨_, task, congrArg (update · cportid _) same.cportMap, rfl, rfl, rfl, mem_cons_self⟩
      · intro handlers found
        change (called.driver driver).opHandlers = some handlers at found
        change (handlers.take (called.driver driver).opHandlersCount).Pairwise _
        rw [same.object] at found ⊢
        exact sortHandlers_sorted qsort (greybus.driver driver) found
    | none =>
      rw [ran] at second
      dsimp only at second ⊢
      have map : (if (called.driver driver).hasExit then called.call (.exit driver cportid)
          else called).cportMap = greybus.cportMap := by
        split
        · exact same.cportMap
        · exact same.cportMap
      constructor
      · intro right _
        have error : retval ≠ 0 := by
          intro zero
          obtain ⟨registered, -, there⟩ := right.zero.mp zero
          exact not_registered map there
        cases init : (greybus.driver driver).hasInit with
        | true =>
          rw [init, if_pos rfl, same.init init] at value
          exact absurd value error
        | false =>
          rw [init, if_neg Bool.false_ne_true] at value
          exact ⟨rfl, value ▸ error⟩
      · intro undoes
        obtain ⟨init, error⟩ := undoes rfl
        rw [init, if_neg Bool.false_ne_true] at value
        refine Right.of_error (value ▸ error) map (fun _ later calls exit => ?_) second
        dsimp only at calls
        rw [exits, exit, if_pos rfl] at calls
        exact same.undone calls

variable (qsort outcomes greybus cportid)

/-- A registration is right exactly when it undoes what it has done before a failure. -/
theorem gb_register_driver_right_iff (driver : Option ℕ) :
    Right outcomes greybus cportid driver (gbRegisterDriver qsort outcomes greybus cportid driver) ↔
      Undoes outcomes greybus cportid driver := by
  cases driver with
  | none =>
    refine ⟨fun _ _ => nofun, fun _ => ?_⟩
    refine ⟨Iff.intro nofun ?_, fun _ => rfl, fun _ _ _ _ => nofun, fun _ => nofun⟩
    rintro ⟨registered, found, -⟩
    cases found
  | some driver =>
    have past : Undoes outcomes greybus cportid (some driver) ↔
        (PastInit outcomes greybus cportid driver →
          if outcomes.kzalloc then
            outcomes.taskRun = none → (greybus.driver driver).hasInit = false ∧ outcomes.retval ≠ 0
          else (greybus.driver driver).hasInit = false ∨ (greybus.driver driver).hasExit = false) :=
      ⟨fun undoes => undoes driver rfl, fun undoes registered found => some.inj found ▸ undoes⟩
    rw [past]
    unfold gbRegisterDriver
    dsimp only
    cases absent : greybus.cportMap cportid with
    | some cport =>
      rw [isSome_some, if_pos rfl]
      refine ⟨fun _ past => absurd (past.1.symm.trans absent) nofun, fun _ => ?_⟩
      exact Right.of_error (by decide : - EEXIST ≠ 0) rfl
        (fun _ later calls => absurd calls (calls_ne rfl later)) fun _ => rfl
    | none =>
      rw [isSome_none, if_neg Bool.false_ne_true]
      by_cases bad : (greybus.driver driver).opHandlers.isNone ∧ 0 < (greybus.driver driver).opHandlersCount
      · rw [if_pos bad]
        refine ⟨fun _ past => absurd ⟨isNone_iff_eq_none.mp bad.1, bad.2⟩ past.2.1, fun _ => ?_⟩
        exact Right.of_error (by decide : - EINVAL ≠ 0) rfl
          (fun _ later calls => absurd calls (calls_ne rfl later))
          fun there => absurd absent there
      · rw [if_neg bad]
        have good : ¬((greybus.driver driver).opHandlers = none ∧ 0 < (greybus.driver driver).opHandlersCount) :=
          fun both => bad ⟨isNone_iff_eq_none.mpr both.1, both.2⟩
        cases init : (greybus.driver driver).hasInit with
        | true =>
          rw [if_pos rfl]
          by_cases failed : outcomes.init ≠ 0
          · rw [if_pos failed]
            refine ⟨fun _ past => absurd (past.2.2 init) failed, fun _ => ?_⟩
            exact Right.of_error failed rfl (fun success => absurd success failed) fun there => absurd absent there
          · rw [if_neg failed]
            have called : Called qsort outcomes greybus cportid driver
                ((greybus.call (.init driver cportid)).sortHandlers qsort driver) :=
              ⟨rfl, update_self _ _ _, (by rw [init]; rfl), fun _ => not_not.mp failed⟩
            have right := called.right_iff absent outcomes.init (by rw [init]; rfl)
            rw [init] at right
            rw [right]
            exact ⟨fun undoes _ => undoes, fun undoes => undoes ⟨absent, good, fun _ => not_not.mp failed⟩⟩
        | false =>
          rw [if_neg Bool.false_ne_true]
          have called : Called qsort outcomes greybus cportid driver (greybus.sortHandlers qsort driver) :=
            ⟨rfl, update_self _ _ _, (by rw [init]; rfl), fun has => nomatch init.symm.trans has⟩
          have right := called.right_iff absent outcomes.retval (by rw [init]; rfl)
          rw [init] at right
          rw [right]
          exact ⟨fun undoes _ => undoes, fun undoes => undoes ⟨absent, good, fun has => nomatch init.symm.trans has⟩⟩

end Registration

def precedes (first second : GbOperationHandler) : Bool := decide (first.type.toNat ≤ second.type.toNat)

/-- A merge sort does what is said of `qsort`. -/
def mergeQsort : Qsort gbCompareHandlers where
  sort handlers := handlers.mergeSort precedes
  perm handlers := List.mergeSort_perm handlers precedes
  sorted handlers := by
    have trans : ∀ a b c, precedes a b = true → precedes b c = true → precedes a c = true := by
      intro a b c first second
      have le := of_decide_eq_true first
      have le' := of_decide_eq_true second
      exact decide_eq_true (Nat.le_trans le le')
    have total : ∀ a b, (precedes a b || precedes b a) = true := by
      intro a b
      obtain le | le := Nat.le_total a.type.toNat b.type.toNat
      · rw [Bool.or_eq_true]
        exact Or.inl (decide_eq_true le)
      · rw [Bool.or_eq_true]
        exact Or.inr (decide_eq_true le)
    apply (List.pairwise_mergeSort trans total handlers).imp
    intro first second before
    have le := of_decide_eq_true before
    unfold gbCompareHandlers
    omega

/-- Without memory for the cport, a driver stays initialised though its registration has failed. -/
theorem gb_register_driver_keeps_init :
    ¬∀ qsort outcomes greybus cportid driver,
      Right outcomes greybus cportid driver (gbRegisterDriver qsort outcomes greybus cportid driver) := by
  intro always
  have right := always mergeQsort ⟨0, 0, false, some 1⟩ ⟨fun _ => none, fun _ => ⟨true, true, none, 0⟩, [], []⟩ 3
    (some 8)
  exact absurd (right.undone enomem_ne_zero rfl 8 [] rfl rfl rfl) List.not_mem_nil

end Phabos.Greybus.Registration
