import Mathlib.Data.List.Pairwise
import Phabos.Construction.Scm.Pinshare
import Phabos.Library.LastWrite
import Phabos.Library.Run

namespace Phabos.Scm
open Library Function List

/-- What a set or clear writes of the pins that its caller held -/
def Update.writes (update : Update) (pin : ℕ) : Option Bool :=
  if (update.bits &&& update.held).getLsbD pin then some update.level else none

variable {bits : Bits}

section Ownership
variable {Task : Type}

/-- The masks that are held are disjoint and make up `pinshare_setting`, and each pin of the register is as the last set
or clear by a holder of the pin has made it. -/
structure Exclusive (register : Bits) (s : State Task) : Prop where
  disjoint : s.granted.Pairwise fun one two => one.2 &&& two.2 = 0
  whole : union (s.granted.map Prod.snd) = s.setting
  settled : ∀ pin < 32, s.register.getLsbD pin = replay Update.writes s.updates register.getLsbD pin

theorem Exclusive.start (register : Bits) : Exclusive register (State.start register : State Task) :=
  ⟨List.Pairwise.nil, rfl, fun _ _ => rfl⟩

theorem Exclusive.quiet {s next : State Task} {register : Bits} (exclusive : Exclusive register s)
    (granted : next.granted = s.granted) (setting : next.setting = s.setting) (same : next.register = s.register)
    (updates : next.updates = s.updates) : Exclusive register next := by
  refine ⟨?_, ?_, ?_⟩
  · rw [granted]
    exact exclusive.disjoint
  · rw [granted, setting]
    exact exclusive.whole
  · rw [same, updates]
    exact exclusive.settled

theorem append_disjoint {granted : List (Task × Bits)} (disjoint : granted.Pairwise fun one two => one.2 &&& two.2 = 0)
    (task : Task) (bits : Bits) :
    (granted ++ [(task, bits)]).Pairwise (fun one two => one.2 &&& two.2 = 0) ↔
      union (granted.map Prod.snd) &&& bits = 0 := by
  rw [pairwise_append, union_and_eq_zero_iff]
  simp only [forall_mem_map, mem_singleton, forall_eq]
  exact ⟨fun all => all.2.2, fun apart => ⟨disjoint, pairwise_singleton _ _, apart⟩⟩

theorem append_union (granted : List (Task × Bits)) (task : Task) (bits : Bits) :
    union ((granted ++ [(task, bits)]).map Prod.snd) = union (granted.map Prod.snd) ||| bits := by
  rw [map_append]
  exact union_append _ bits

theorem other_owner {granted : List (Task × Bits)} (disjoint : granted.Pairwise fun one two => one.2 &&& two.2 = 0)
    {own grant : Task × Bits} (first : own ∈ granted) (second : grant ∈ granted) {pin : ℕ}
    (held : own.2.getLsbD pin = true) (there : grant.2.getLsbD pin = true) : grant.1 = own.1 := by
  by_contra differs
  have : Std.Symm fun one two : Task × Bits => one.2 &&& two.2 = 0 :=
    ⟨fun one two apart => (BitVec.and_comm two.2 one.2).trans apart⟩
  have apart := disjoint.forall first second fun same => differs (congrArg Prod.fst same.symm)
  exact and_eq_zero_iff.mp apart pin held there

variable [DecidableEq Task]

/-- Owners release only bits that they hold. -/
def OwnersRelease (s : State Task) : Action Task → Prop
  | .call task (.releasePinshare bits) => bits &&& ~~~ s.held task = 0
  | _ => True

instance (s : State Task) : ∀ action, Decidable (OwnersRelease s action)
  | .call task (.releasePinshare bits) => inferInstanceAs (Decidable (bits &&& ~~~ s.held task = 0))
  | .call _ (.requestPinshare _) | .call _ (.setPinshare _) | .call _ (.clrPinshare _) | .access _ => isTrue trivial

/-- When a request takes its pins none of them is taken. When a set or clear writes the register the other pins are as
it has read them, and those of its pins that the caller does not hold are at the level already. -/
def UndisturbedAt (s : State Task) (task : Task) : Place → Prop
  | .request bits (.store _) => s.setting &&& bits = 0
  | .update level bits (.write r) => ∀ pin < 32,
      (bits.getLsbD pin = false → s.register.getLsbD pin = r.getLsbD pin) ∧
        (bits.getLsbD pin = true → (s.held task).getLsbD pin = false → s.register.getLsbD pin = level)
  | _ => True

instance (s : State Task) (task : Task) : ∀ place, Decidable (UndisturbedAt s task place)
  | .request bits (.store _) => inferInstanceAs (Decidable (s.setting &&& bits = 0))
  | .update _ _ (.write _) => inferInstanceAs (Decidable (∀ pin < 32, _ ∧ _))
  | .outside | .requestTest _ | .request _ .disable | .request _ .load | .request _ .enable | .release _ _
  | .update _ _ .test | .update _ _ .read => isTrue trivial

def Undisturbed (s : State Task) : Action Task → Prop
  | .call _ _ => True
  | .access task => UndisturbedAt s task (s.place task)

instance (s : State Task) : ∀ action, Decidable (Undisturbed s action)
  | .call _ _ => isTrue trivial
  | .access task => inferInstanceAs (Decidable (UndisturbedAt s task (s.place task)))

/-- The part of a critical section that a task is in -/
def Place.critical : Place → Option Critical
  | .request _ part | .release _ part => some part
  | _ => none

/-- A task has interrupts off. -/
def Place.Inside (place : Place) : Prop := ∃ part ∈ place.critical, part ≠ .disable

/-- The task in a critical section is the one that has interrupts off, it has read `pinshare_setting` as it is, and a
task that is about to release bits still holds them. -/
structure Sound (s : State Task) : Prop where
  masked : ∀ task, (s.place task).Inside ↔ s.masked = some task
  stored : ∀ task, ∀ setting, (s.place task).critical = some (.store setting) → setting = s.setting
  owned : ∀ task bits part, s.place task = .release bits part → part ≠ .enable → bits &&& ~~~ s.held task = 0

section Turns
variable {s next : State Task} {task : Task}

/-- A step of a task leaves the other tasks where they are and does not touch what they hold. -/
structure Turn (task : Task) (s next : State Task) : Prop where
  others : ∀ other, other ≠ task → next.place other = s.place other
  kept : ∀ other, other ≠ task → next.held other = s.held other
  inside : (next.place task).Inside → next.masked = some task
  outside : ¬(next.place task).Inside → next.masked = none

section
variable (sound : Sound s) (runs : s.Runs task)
include sound runs

theorem Sound.turn (turn : Turn task s next)
    (stored : ∀ setting, (next.place task).critical = some (.store setting) → setting = next.setting)
    (owned : ∀ bits part, next.place task = .release bits part → part ≠ .enable → bits &&& ~~~ next.held task = 0) :
    Sound next := by
  have alone (other : Task) (differs : other ≠ task) : ¬(next.place other).Inside := by
    rw [turn.others other differs, sound.masked other]
    intro masked
    cases runs with
    | inl free => exact nomatch free.symm.trans masked
    | inr own => exact differs (Option.some.inj (masked.symm.trans own))
  refine ⟨fun other => ?_, fun other setting there => ?_, fun other bits part there before => ?_⟩
  · by_cases same : other = task
    · subst same
      refine ⟨turn.inside, fun masked => ?_⟩
      by_contra outside
      exact nomatch (turn.outside outside).symm.trans masked
    · refine iff_of_false (alone other same) fun masked => ?_
      by_cases inside : (next.place task).Inside
      · exact same (Option.some.inj (masked.symm.trans (turn.inside inside)))
      · exact nomatch (turn.outside inside).symm.trans masked
  · by_cases same : other = task
    · subst same
      exact stored setting there
    · exact (alone other same ⟨_, there, nofun⟩).elim
  · by_cases same : other = task
    · subst same
      exact owned bits part there before
    · rw [turn.kept other same]
      rw [turn.others other same] at there
      exact sound.owned other bits part there before

theorem Sound.free (outside : ¬(s.place task).Inside) : s.masked = none := by
  cases runs with
  | inl free => exact free
  | inr own => exact (outside ((sound.masked task).mpr own)).elim

theorem Sound.goto (before : ¬(s.place task).Inside) {place : Place} (after : ¬place.Inside)
    (owned : ∀ bits, place = .release bits .disable → bits &&& ~~~ s.held task = 0) : Sound (s.goto task place) := by
  have here : (s.goto task place).place task = place := update_self ..
  refine sound.turn runs ⟨fun other differs => ?_, fun _ _ => rfl, ?_, ?_⟩ ?_ ?_
  · exact update_of_ne differs ..
  · intro inside
    rw [here] at inside
    exact (after inside).elim
  · exact fun _ => sound.free runs before
  · intro setting there
    rw [here] at there
    exact (after ⟨_, there, nofun⟩).elim
  · intro bits part there _
    rw [here] at there
    subst there
    cases part with
    | disable => exact owned bits rfl
    | load | store | enable => exact (after ⟨_, rfl, nofun⟩).elim

theorem Sound.critical {part : Critical → Place} {change : Bits → Bits}
    {grant : List (Task × Bits) → List (Task × Bits)} {place : Critical} (here : s.place task = part place)
    (within : ∀ place, (part place).critical = some place)
    (owned : place ≠ .enable → ∀ other bits at', part other = .release bits at' → bits &&& ~~~ s.held task = 0)
    (kept : ∀ other, other ≠ task → (grant s.granted).filter (fun held => held.1 = other) = s.granted.filter fun held => held.1 = other) :
    Sound (s.critical task part change grant place) := by
  have inside {other : Critical} (differs : other ≠ .disable) : (part other).Inside := ⟨other, within other, differs⟩
  have goes (next : Place) (other : Task) (differs : other ≠ task) : (s.goto task next).place other = s.place other :=
    update_of_ne differs ..
  cases place with
  | disable =>
    have there : (s.goto task (part .load)).place task = part .load := update_self ..
    refine sound.turn runs ⟨goes _, fun _ _ => rfl, fun _ => rfl, fun outside => ?_⟩ ?_ ?_
    · exact (outside (there ▸ inside nofun)).elim
    · intro setting store
      change ((s.goto task (part .load)).place task).critical = _ at store
      rw [there, within] at store
      exact nomatch store
    · intro bits at' released _
      exact owned nofun .load bits at' (there ▸ released)
  | load =>
    have there : (s.goto task (part (.store s.setting))).place task = part (.store s.setting) := update_self ..
    have off : s.masked = some task := (sound.masked task).mp (here ▸ inside nofun)
    refine sound.turn runs ⟨goes _, fun _ _ => rfl, fun _ => off, fun outside => ?_⟩ ?_ ?_
    · exact (outside (there ▸ inside nofun)).elim
    · intro setting store
      rw [State.critical, there, within] at store
      cases store
      rfl
    · intro bits at' released _
      exact owned nofun _ bits at' (there ▸ released)
  | store setting =>
    have there : (s.goto task (part .enable)).place task = part .enable := update_self ..
    have off : s.masked = some task := (sound.masked task).mp (here ▸ inside nofun)
    refine sound.turn runs ⟨goes _, fun other differs => ?_, fun _ => off, fun outside => ?_⟩ ?_ ?_
    · change union ((filter _ (grant s.granted)).map Prod.snd) = _
      rw [kept other differs]
      rfl
    · exact (outside (there ▸ inside nofun)).elim
    · intro other store
      change ((s.goto task (part .enable)).place task).critical = _ at store
      rw [there, within] at store
      exact nomatch store
    · intro bits at' released before
      change (s.goto task (part .enable)).place task = _ at released
      rw [there] at released
      have same := within .enable
      rw [released] at same
      exact (before (Option.some.inj same)).elim
  | enable =>
    have there : (s.return task 0).place task = .outside := update_self ..
    refine sound.turn runs ⟨goes _, fun _ _ => rfl, fun inside => ?_, fun _ => rfl⟩ ?_ ?_
    · exact nomatch (there ▸ inside)
    · intro setting store
      exact nomatch (there ▸ store)
    · intro bits at' released _
      exact nomatch there.symm.trans released

end

theorem append_others (bits : Bits) (granted : List (Task × Bits)) {other : Task} (differs : other ≠ task) :
    (granted ++ [(task, bits)]).filter (fun held => held.1 = other) = granted.filter fun held => held.1 = other := by
  rw [filter_append, filter_cons_of_neg (by simpa using Ne.symm differs)]
  exact append_nil _

theorem release_others (bits : Bits) (granted : List (Task × Bits)) {other : Task} (differs : other ≠ task) :
    (release task bits granted).filter (fun held => held.1 = other) = granted.filter fun held => held.1 = other := by
  induction granted with
  | nil => rfl
  | cons grant rest ih =>
    change filter _ ((if grant.1 = task then _ else grant) :: release task bits rest) = _
    by_cases own : grant.1 = task
    · have skipped : ¬decide (grant.1 = other) = true := by simpa [own] using Ne.symm differs
      rw [if_pos own, filter_cons_of_neg (by simpa using Ne.symm differs), ih]
      exact (filter_cons_of_neg (p := fun held : Task × Bits => decide (held.1 = other)) skipped).symm
    · rw [if_neg own, filter_cons, filter_cons, ih]

theorem release_disjoint {granted : List (Task × Bits)} (disjoint : granted.Pairwise fun one two => one.2 &&& two.2 = 0)
    (task : Task) (bits : Bits) : (release task bits granted).Pairwise fun one two => one.2 &&& two.2 = 0 := by
  have part (grant : Task × Bits) {pin : ℕ}
      (inside : (if grant.1 = task then (task, grant.2 &&& ~~~ bits) else grant).2.getLsbD pin = true) :
      grant.2.getLsbD pin = true := by
    split at inside
    · exact (Bool.and_eq_true_iff.mp (BitVec.getLsbD_and ▸ inside)).1
    · exact inside
  refine pairwise_map.mpr (disjoint.imp fun apart => ?_)
  rw [and_eq_zero_iff] at apart ⊢
  exact fun pin first second => apart pin (part _ first) (part _ second)

theorem release_union {granted : List (Task × Bits)} (disjoint : granted.Pairwise fun one two => one.2 &&& two.2 = 0)
    {task : Task} (owned : bits &&& ~~~ union ((granted.filter fun grant => grant.1 = task).map Prod.snd) = 0) :
    union ((release task bits granted).map Prod.snd) = union (granted.map Prod.snd) &&& ~~~ bits := by
  apply BitVec.eq_of_getLsbD_eq
  intro pin small
  rw [Bool.eq_iff_iff, getLsbD_union, BitVec.getLsbD_and, Bool.and_eq_true, getLsbD_union, BitVec.getLsbD_not,
    decide_eq_true small, Bool.true_and, Bool.not_eq_true']
  simp only [release, map_map, mem_map, comp_apply, exists_exists_and_eq_and]
  constructor
  · rintro ⟨grant, there, inside⟩
    by_cases own : grant.1 = task
    · rw [if_pos own, BitVec.getLsbD_and, Bool.and_eq_true, BitVec.getLsbD_not, decide_eq_true small, Bool.true_and,
        Bool.not_eq_true'] at inside
      exact ⟨⟨grant, there, inside.1⟩, inside.2⟩
    · rw [if_neg own] at inside
      refine ⟨⟨grant, there, inside⟩, Bool.eq_false_iff.mpr fun released => own ?_⟩
      obtain ⟨mask, held, found⟩ := (getLsbD_union _ pin).mp (and_not_eq_zero_iff.mp owned pin released)
      obtain ⟨other, among, rfl⟩ := mem_map.mp held
      obtain ⟨among, mine⟩ := mem_filter.mp among
      exact (other_owner disjoint among there found inside).trans (of_decide_eq_true mine)
  · rintro ⟨⟨grant, there, inside⟩, kept⟩
    refine ⟨grant, there, ?_⟩
    by_cases own : grant.1 = task
    · rw [if_pos own, BitVec.getLsbD_and, inside, BitVec.getLsbD_not, decide_eq_true small, kept]
      rfl
    · rw [if_neg own]
      exact inside

theorem apply_bit (level : Bool) (bits r : Bits) {pin : ℕ} (small : pin < 32) :
    (apply level bits r).getLsbD pin = if bits.getLsbD pin then level else r.getLsbD pin := by
  unfold apply
  cases level with
  | true =>
    rw [if_pos rfl, BitVec.getLsbD_or]
    cases bits.getLsbD pin <;> simp
  | false =>
    rw [if_neg Bool.false_ne_true, BitVec.getLsbD_and, BitVec.getLsbD_not, decide_eq_true small]
    cases bits.getLsbD pin <;> simp

variable {register : Bits}

theorem write_settled {updates : List Update} {now : Bits}
    (settled : ∀ pin < 32, now.getLsbD pin = replay Update.writes updates register.getLsbD pin) (level : Bool)
    (bits held r : Bits) :
    (∀ pin < 32, (apply level bits r).getLsbD pin =
      replay Update.writes (updates ++ [⟨level, bits, held⟩]) register.getLsbD pin) ↔
    ∀ pin < 32, (bits.getLsbD pin = false → now.getLsbD pin = r.getLsbD pin) ∧
      (bits.getLsbD pin = true → held.getLsbD pin = false → now.getLsbD pin = level) := by
  refine forall_congr' fun pin => imp_congr_right fun small => ?_
  have last : replay Update.writes (updates ++ [⟨level, bits, held⟩]) register.getLsbD pin =
      if (bits &&& held).getLsbD pin then level else now.getLsbD pin := by
    rw [replay_append, settled pin small]
    change (Update.writes ⟨level, bits, held⟩ pin).getD _ = _
    unfold Update.writes
    split <;> rfl
  rw [last, apply_bit level bits r small, BitVec.getLsbD_and]
  cases bits.getLsbD pin with
  | false => simpa using eq_comm
  | true =>
    cases held.getLsbD pin with
    | false => simpa using eq_comm
    | true => simp

theorem Sound.start (register : Bits) : Sound (State.start register : State Task) :=
  ⟨fun _ => iff_of_false nofun nofun, nofun, nofun⟩

theorem Sound.call (sound : Sound s) (runs : s.Runs task) (outside : s.place task = .outside) {call : Call}
    (owners : OwnersRelease s (.call task call)) : Sound (s.goto task call.entry) := by
  refine sound.goto runs (by rw [outside]; exact nofun) ?_ ?_
  · cases call with
    | requestPinshare => exact nofun
    | releasePinshare =>
      rintro ⟨part, here, differs⟩
      exact differs (Option.some.inj here).symm
    | setPinshare => exact nofun
    | clrPinshare => exact nofun
  · intro bits release
    cases call with
    | releasePinshare =>
      cases release
      exact owners
    | requestPinshare => exact nomatch release
    | setPinshare => exact nomatch release
    | clrPinshare => exact nomatch release

theorem Exclusive.request {part : Critical} (exclusive : Exclusive register s)
    (stored : ∀ setting, part = .store setting → setting = s.setting) :
    Exclusive register (s.tsbRequestPinshareCritical task bits part) ↔ UndisturbedAt s task (.request bits part) := by
  cases part with
  | disable | load | enable => exact iff_of_true (exclusive.quiet rfl rfl rfl rfl) trivial
  | store setting =>
    obtain rfl := stored setting rfl
    have adds := append_disjoint exclusive.disjoint task bits
    rw [exclusive.whole] at adds
    refine Iff.trans ⟨Exclusive.disjoint, fun disjoint => ⟨disjoint, ?_, exclusive.settled⟩⟩ adds
    exact (append_union _ task bits).trans (congrArg (· ||| bits) exclusive.whole)

theorem Exclusive.release {part : Critical} (exclusive : Exclusive register s)
    (stored : ∀ setting, part = .store setting → setting = s.setting)
    (owned : part ≠ .enable → bits &&& ~~~ s.held task = 0) :
    Exclusive register (s.tsbReleasePinshare task bits part) := by
  cases part with
  | disable | load | enable => exact exclusive.quiet rfl rfl rfl rfl
  | store setting =>
    obtain rfl := stored setting rfl
    refine ⟨release_disjoint exclusive.disjoint task bits, ?_, exclusive.settled⟩
    exact (release_union exclusive.disjoint (owned nofun)).trans (congrArg (· &&& ~~~ bits) exclusive.whole)

theorem Exclusive.update {level : Bool} {part : Access} (exclusive : Exclusive register s) :
    Exclusive register (s.update task level bits part) ↔ UndisturbedAt s task (.update level bits part) := by
  cases part with
  | test =>
    refine iff_of_true ?_ trivial
    rw [State.update]
    split
    · exact exclusive.quiet rfl rfl rfl rfl
    · exact exclusive.quiet rfl rfl rfl rfl
  | read => exact iff_of_true (exclusive.quiet rfl rfl rfl rfl) trivial
  | write r =>
    refine Iff.trans ⟨Exclusive.settled, fun settled => ⟨exclusive.disjoint, exclusive.whole, settled⟩⟩ ?_
    exact write_settled exclusive.settled level bits (s.held task) r

theorem Sound.update (sound : Sound s) (runs : s.Runs task) {level : Bool} {part : Access}
    (here : s.place task = .update level bits part) : Sound (s.update task level bits part) := by
  have before : ¬(s.place task).Inside := by
    rw [here]
    exact nofun
  cases part with
  | test =>
    rw [State.update]
    split
    · exact sound.goto runs before nofun nofun
    · exact sound.goto runs before nofun nofun
  | read => exact sound.goto runs before nofun nofun
  | write r =>
    have moved : Sound (s.goto task .outside) := sound.goto runs before nofun nofun
    exact { moved with }

/-- A step keeps the owners exclusive exactly when it is undisturbed. -/
theorem Sound.step (sound : Sound s) {action : Action Task} (owners : OwnersRelease s action)
    (stepped : step s action = some next) :
    Sound next ∧ (Exclusive register s → (Exclusive register next ↔ Undisturbed s action)) := by
  cases action with
  | call task call =>
    obtain ⟨⟨runs, outside⟩, rfl⟩ := Option.ite_some_none_eq_some.mp stepped
    exact ⟨sound.call runs outside owners, fun exclusive => iff_of_true (exclusive.quiet rfl rfl rfl rfl) trivial⟩
  | access task =>
    obtain ⟨runs, accessed⟩ := Option.ite_none_right_eq_some.mp stepped
    unfold State.access at accessed
    change Sound next ∧ (Exclusive register s → (Exclusive register next ↔ UndisturbedAt s task (s.place task)))
    cases here : s.place task with
    | outside =>
      rw [here] at accessed
      cases accessed
    | requestTest bits =>
      rw [here] at accessed
      obtain rfl := Option.some.inj accessed
      have before : ¬(s.place task).Inside := by
        rw [here]
        exact nofun
      rw [State.tsbRequestPinshare]
      split
      · have moved : Sound (s.goto task .outside) := sound.goto runs before nofun nofun
        exact ⟨{ moved with },
          fun exclusive => iff_of_true (exclusive.quiet rfl rfl rfl rfl) trivial⟩
      · refine ⟨sound.goto runs before ?_ nofun, fun exclusive => ?_⟩
        · rintro ⟨part, inside, differs⟩
          exact differs (Option.some.inj inside).symm
        · exact iff_of_true (exclusive.quiet rfl rfl rfl rfl) trivial
    | request bits part =>
      rw [here] at accessed
      obtain rfl := Option.some.inj accessed
      refine ⟨sound.critical runs here (fun _ => rfl) nofun fun other differs => append_others bits _ differs, ?_⟩
      refine fun exclusive => exclusive.request fun setting store => sound.stored task setting ?_
      rw [here, store]
      rfl
    | release bits part =>
      rw [here] at accessed
      obtain rfl := Option.some.inj accessed
      have owned (before : part ≠ .enable) := sound.owned task bits part here before
      refine ⟨sound.critical runs here (fun _ => rfl) ?_ fun other differs => release_others bits _ differs, ?_⟩
      · intro before other bits' part' same
        cases same
        exact owned before
      · refine fun exclusive => iff_of_true (exclusive.release (fun setting store => ?_) owned) trivial
        refine sound.stored task setting ?_
        rw [here, store]
        rfl
    | update level bits part =>
      rw [here] at accessed
      have same : s.update task level bits part = next := by
        cases level with
        | true | false => exact Option.some.inj accessed
      subst same
      exact ⟨sound.update runs here, Exclusive.update⟩

/-- In every run whose owners release only bits that they hold, the masks stay exclusive and the register follows their
holders in each state reached exactly when no request takes a taken pin and no write is disturbed. -/
theorem pinshare_exclusive (register : Bits) (actions : List (Action Task)) (final : State Task)
    (owners : Guarded Scm.step OwnersRelease (State.start register) actions)
    (ran : run Scm.step (State.start register) actions = some final) :
    (∀ first, first <+: actions → ∀ middle, run Scm.step (State.start register) first = some middle →
      Exclusive register middle) ↔ Guarded Scm.step Undisturbed (State.start register) actions :=
  reached_iff_guarded Scm.step OwnersRelease Undisturbed Sound (Exclusive register)
    (fun _ _ _ sound owners stepped => sound.step owners stepped) _ final actions (Sound.start register)
    (Exclusive.start register) owners ran

end Turns

end Ownership

/-- A task runs a call without being interrupted. -/
def uninterrupted {Task : Type} (task : Task) (call : Call) (accesses : ℕ) : List (Action Task) :=
  .call task call :: List.replicate accesses (.access task)

/-- Two owners set their pins one after the other, and one of them gives one of its pins back. -/
def handover : List (Action Bool) :=
  uninterrupted true (.requestPinshare 3) 5 ++ uninterrupted false (.requestPinshare 4) 5 ++
    [.call true (.setPinshare 3), .call false (.setPinshare 4), .access true, .access false] ++
    List.replicate 2 (.access true) ++ List.replicate 2 (.access false) ++
    uninterrupted true (.releasePinshare 1) 4 ++ uninterrupted false (.clrPinshare 4) 3

theorem pinshare_exclusive_handover : ∃ final, run step (State.start 0) handover = some final ∧
    ∀ first, first <+: handover → ∀ middle, run step (State.start 0) first = some middle → Exclusive 0 middle := by
  refine ⟨_, rfl, (pinshare_exclusive 0 handover _ ?_ rfl).mpr ?_⟩
  · decide
  · decide

/-- Two tasks pass the test for the same pin before either takes it. -/
def requestRace : List (Action Bool) :=
  [.call true (.requestPinshare 1), .call false (.requestPinshare 1), .access true, .access false] ++
    List.replicate 4 (.access true) ++ List.replicate 4 (.access false)

/-- Two owners read the register before either writes it. -/
def lostUpdate : List (Action Bool) :=
  uninterrupted true (.requestPinshare 1) 5 ++ uninterrupted false (.requestPinshare 2) 5 ++
    [.call true (.setPinshare 1), .call false (.setPinshare 2), .access true, .access false, .access true,
      .access false, .access true, .access false]

/-- Two requests for one pin succeed, and the set of a pin by its owner is lost to the owner of another one. -/
theorem pinshare_shared :
    (∃ final, run step (State.start 0) requestRace = some final ∧
      Guarded step OwnersRelease (State.start 0) requestRace ∧ (∀ task, final.place task = .outside) ∧
        (∀ task, final.returned task = 0) ∧ ¬final.granted.Pairwise fun one two => one.2 &&& two.2 = 0) ∧
    ∃ final, run step (State.start 0) lostUpdate = some final ∧
      Guarded step OwnersRelease (State.start 0) lostUpdate ∧ (∀ task, final.place task = .outside) ∧
        (∀ update ∈ final.updates, update.bits &&& ~~~ update.held = 0) ∧
          ¬∀ pin < 32, final.register.getLsbD pin = replay Update.writes final.updates (0 : Bits).getLsbD pin := by
  refine ⟨⟨_, rfl, ?_, by decide, by decide, by decide⟩, _, rfl, ?_, by decide, by decide, by decide⟩
  · decide
  · decide

end Phabos.Scm
