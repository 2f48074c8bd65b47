import Phabos.Library.Run
import Phabos.Proof.Kernel.TaskLists

namespace Phabos.Tasks
open Library Sched Function List Option

/-- The task that a task moves before its next step, and where the moved task is then. -/
def Op.moves (current : ℕ) : Op → Option (ℕ × Place)
  | .ready t => some (t, .lifted)
  | .enqueue t => some (t, .raised)
  | .dequeue _ | .exitDequeue => some (current, .leaving)
  | .link _ => some (current, .lifted)
  | _ => none

/-- The task that the current task is moving between two lists. -/
def Machine.moved (m : Machine) : Option (ℕ × Place) := (m.ops m.current).head?.bind (Op.moves m.current)

/-- The current task when it is at the end of `task_exit`, off its list. -/
def Machine.dying (m : Machine) : Option ℕ :=
  if Op.kill ∈ m.ops m.current ∨ m.scheduler.killTask = true then some m.current else none

/-- The runqueue of the policy and the priority of a task. -/
def Machine.runqueue (m : Machine) (t : ℕ) : Queue :=
  match (m.scheduler.task t).policy with
  | some .fifo => .fifo (m.scheduler.task t).priority.toNat
  | _ => .rr (m.scheduler.task t).priority.toNat

/-- A task is found on the list that it is taken off, and the idle task does not wait. -/
def Machine.Finds (m : Machine) : Op → Prop
  | .unlink list t => t ∈ m.scheduler.queue (.wait list)
  | .first list => m.scheduler.queue (.wait list) ≠ []
  | .turn cond (some t) => t ∈ m.scheduler.queue (.wait (.cond cond))
  | .down semaphore => m.current ≠ idleTask ∨ m.count semaphore ≠ 0
  | .clear _ => m.current ≠ idleTask
  | _ => True

/-- The task whose mutex or condition an object is -/
def owner : Object → Option ℕ
  | .ofTask t => some t
  | .other _ => none

def listOwner : WaitList → Option ℕ
  | .semaphore object | .cond object => owner object

/-- The tasks whose memory a step uses -/
def Op.names : Op → List ℕ
  | .down object | .inc object | .test object | .broadcast object => (owner object).toList
  | .first list | .clear list | .dequeue list | .link list => (listOwner list).toList
  | .turn object iter => (owner object).toList ++ iter.toList
  | .unlink list t => t :: (listOwner list).toList
  | .ready t | .enqueue t => [t]
  | .yield | .exitClear | .exitDequeue | .kill | .run => []

/-- Nobody else is in a call about a task or on one of its wait lists. A new task that gets the memory of such a task when
it is released is like one in fresh memory. -/
def Machine.Unused (m : Machine) (t : ℕ) : Prop :=
  (∀ u < m.nextTaskId, u ≠ t → ∀ op ∈ m.ops u, t ∉ op.names) ∧
    m.scheduler.queue (.wait (.semaphore (.ofTask t))) = [] ∧ m.scheduler.queue (.wait (.cond (.ofTask t))) = []

/-- No tick comes while the current task moves a task or exits, and its steps find their tasks. Calls are about live
tasks, and a task is released when no call is about it. -/
def Machine.Undisturbed (m : Machine) : Action → Prop
  | .call call => ∀ op ∈ call.program, ∀ t ∈ op.names, m.live t = true
  | .tick =>
    (m.moved = none ∧ Op.kill ∉ m.ops m.current) ∧
      (m.scheduler.killTask = true → m.current ≠ idleTask → m.Unused m.current)
  | .exec => ∀ op ∈ (m.ops m.current).head?, m.Finds op

/-- A step that moves no task. -/
def Op.plain (op : Op) : Bool := (op.moves 0).isNone

/-- The steps of a broadcast, which a task can still take when it dies. -/
def Op.ending : Op → Bool
  | .broadcast _ | .turn _ _ | .unlink _ _ | .ready _ | .enqueue _ => true
  | _ => false

/-- Only the current task is in the middle of a move or of its exit. -/
structure Machine.Ordered (m : Machine) : Prop where
  tails : ∀ u, ∀ op ∈ (m.ops u).tail, op.plain = true
  others : ∀ u, u ≠ m.current → ∀ op ∈ m.ops u, op.plain = true ∧ op ≠ .kill
  ending : Op.kill ∈ m.ops m.current → ∃ front, m.ops m.current = front ++ [.kill, .yield] ∧
    ∀ op ∈ front, op.ending = true
  killed : m.scheduler.killTask = true → m.ops m.current = [.yield]

/-- Every task is at the place that the steps of the current task give it. -/
structure Machine.Settled (m : Machine) : Prop where
  sound : m.scheduler.Sound m.live m.nextTaskId
  ordered : m.Ordered
  placed : m.scheduler.Placed m.live m.dying m.moved
  named : ∀ t place, m.moved = some (t, place) → m.live t = true ∧ t ≠ idleTask ∧ m.dying ≠ some t

section Settled
variable {m next : Machine} {op : Op} {rest : List Op} {t : ℕ}

theorem Op.moves_eq_none (plain : op.plain = true) (current : ℕ) : op.moves current = none := by
  cases op with
  | ready t => cases plain
  | enqueue t => cases plain
  | dequeue list => cases plain
  | exitDequeue => cases plain
  | link list => cases plain
  | down semaphore => rfl
  | inc semaphore => rfl
  | test semaphore => rfl
  | first list => rfl
  | broadcast cond => rfl
  | turn cond iter => rfl
  | unlink list t => rfl
  | clear list => rfl
  | yield => rfl
  | exitClear => rfl
  | kill => rfl
  | run => rfl

theorem moves_eq_none_of_plain {ops : List Op} (plain : ∀ op ∈ ops, op.plain = true) (current : ℕ) :
    ops.head?.bind (Op.moves current) = none := by
  cases ops with
  | nil => rfl
  | cons op rest => exact Op.moves_eq_none (plain op mem_cons_self) current

theorem Machine.Settled.not_dying (settled : m.Settled) (ops : m.ops m.current = op :: rest)
    (outside : op.ending = false) (yields : op ≠ .yield) (kills : op ≠ .kill) : m.dying = none := by
  refine if_neg ?_
  rintro (dies | killed)
  · obtain ⟨front, same, ending⟩ := settled.ordered.ending dies
    rw [ops] at same
    cases front with
    | nil => exact kills (cons.inj same).1
    | cons first front =>
      have inside := ending first mem_cons_self
      rw [← (cons.inj same).1, outside] at inside
      cases inside
  · have same := settled.ordered.killed killed
    rw [ops] at same
    exact yields (cons.inj same).1

variable {scheduler : Scheduler}

theorem Machine.Settled.goOnWith {live : ℕ → Bool} {nextTaskId : ℕ} {dying : Option ℕ}
    (settled : m.Settled) (ops : List Op) (tails : ∀ op ∈ ops.tail, op.plain = true)
    (ending : Op.kill ∈ ops → ∃ front, ops = front ++ [.kill, .yield] ∧ ∀ op ∈ front, op.ending = true)
    (killed : scheduler.killTask = true → ops = [.yield])
    (dies : (if Op.kill ∈ ops ∨ scheduler.killTask = true then some m.current else none) = dying)
    (current : scheduler.current = m.current) (sound : scheduler.Sound live nextTaskId)
    (placed : scheduler.Placed live dying (ops.head?.bind (Op.moves m.current)))
    (named : ∀ t place, ops.head?.bind (Op.moves m.current) = some (t, place) →
      live t = true ∧ t ≠ idleTask ∧ dying ≠ some t) (count : Object → BitVec 32) (faulted : Bool) :
    Machine.Settled ⟨scheduler, update m.ops m.current ops, live, nextTaskId, count, faulted⟩ := by
  generalize same : (⟨scheduler, update m.ops m.current ops, live, nextTaskId, count, faulted⟩ : Machine) =
    next
  have nextCurrent : next.current = m.current := by
    rw [← same]
    exact current
  have nextOps : next.ops m.current = ops := by
    rw [← same]
    exact update_self _ _ _
  have nextOther (u) (differs : u ≠ m.current) : next.ops u = m.ops u := by
    rw [← same]
    exact update_of_ne differs _ _
  have fields : next.scheduler = scheduler ∧ next.live = live ∧ next.nextTaskId = nextTaskId := by
    rw [← same]
    exact ⟨rfl, rfl, rfl⟩
  have nextDying : next.dying = dying := by
    unfold Machine.dying
    rw [nextCurrent, nextOps, fields.1]
    exact dies
  have nextMoved : next.moved = ops.head?.bind (Op.moves m.current) := by
    unfold Machine.moved
    rw [nextCurrent, nextOps]
  refine ⟨?_, ⟨fun u op there => ?_, fun u differs op there => ?_, fun kills => ?_, fun kills => ?_⟩, ?_, ?_⟩
  · rw [fields.1, fields.2.1, fields.2.2]
    exact sound
  · by_cases here : u = m.current
    · rw [here, nextOps] at there
      exact tails op there
    · rw [nextOther u here] at there
      exact settled.ordered.tails u op there
  · rw [nextCurrent] at differs
    rw [nextOther u differs] at there
    exact settled.ordered.others u differs op there
  · rw [nextCurrent, nextOps] at kills ⊢
    exact ending kills
  · rw [fields.1] at kills
    rw [nextCurrent, nextOps]
    exact killed kills
  · rw [fields.1, fields.2.1, nextDying, nextMoved]
    exact placed
  · rw [fields.2.1, nextDying, nextMoved]
    exact named

theorem Machine.Settled.goOn {live : ℕ → Bool} {nextTaskId : ℕ} (settled : m.Settled)
    (front : List Op) (ops : m.ops m.current = op :: rest) (yields : op ≠ .yield) (kills : op ≠ .kill)
    (tail : ∀ o ∈ front.tail, o.plain = true) (spared : Op.kill ∉ front)
    (ends : op.ending = true → ∀ o ∈ front, o.ending = true)
    (current : scheduler.current = m.current) (kill : scheduler.killTask = m.scheduler.killTask)
    (sound : scheduler.Sound live nextTaskId)
    (placed : scheduler.Placed live m.dying (front.head?.bind (Op.moves m.current)))
    (named : ∀ t place, front.head?.bind (Op.moves m.current) = some (t, place) →
      live t = true ∧ t ≠ idleTask ∧ m.dying ≠ some t) (count : Object → BitVec 32) (faulted : Bool) :
    Machine.Settled ⟨scheduler, update m.ops m.current (front ++ rest), live, nextTaskId, count, faulted⟩ := by
  have rests (o) (there : o ∈ rest) : o.plain = true := by
    refine settled.ordered.tails m.current o ?_
    rw [ops]
    exact there
  have kills' : Op.kill ∈ front ++ rest ↔ Op.kill ∈ m.ops m.current := by
    rw [ops, mem_append, mem_cons]
    exact ⟨fun there => .inr (there.resolve_left spared), fun there => .inr (there.resolve_left kills.symm)⟩
  have moved : (front ++ rest).head?.bind (Op.moves m.current) = front.head?.bind (Op.moves m.current) := by
    cases front with
    | nil => exact moves_eq_none_of_plain rests _
    | cons first front => rfl
  refine settled.goOnWith (front ++ rest) (fun o there => ?_) (fun dies => ?_) (fun killed => ?_) ?_ current sound
    (moved ▸ placed) (moved ▸ named) count faulted
  · cases front with
    | nil => exact rests o (mem_of_mem_tail there)
    | cons first front => exact (mem_append.mp there).elim (tail o) (rests o)
  · obtain ⟨early, split, ending⟩ := settled.ordered.ending (kills'.mp dies)
    rw [ops] at split
    cases early with
    | nil => exact absurd (cons.inj split).1 kills
    | cons first early =>
      obtain ⟨rfl, rfl⟩ := cons.inj split
      refine ⟨front ++ early, (append_assoc ..).symm, fun o there => ?_⟩
      rcases mem_append.mp there with new | old
      · exact ends (ending op mem_cons_self) o new
      · exact ending o (mem_cons_of_mem _ old)
  · rw [kill] at killed
    have yielding := settled.ordered.killed killed
    rw [ops] at yielding
    exact absurd (cons.inj yielding).1 yields
  · unfold Machine.dying
    rw [kill]
    by_cases dies : Op.kill ∈ m.ops m.current ∨ m.scheduler.killTask = true
    · rw [if_pos dies, if_pos (dies.imp_left kills'.mpr)]
    · rw [if_neg dies, if_neg fun there => dies (there.imp_left kills'.mp)]

/-- No task is moved, and none is at the end of its exit. -/
def Machine.Quiet (m : Machine) : Prop := ∀ u, ∀ op ∈ m.ops u, op.plain = true ∧ op ≠ .kill

theorem Machine.Quiet.moved (quiet : m.Quiet) : m.moved = none :=
  moves_eq_none_of_plain (fun op there => (quiet m.current op there).1) _

theorem Machine.Quiet.dying (quiet : m.Quiet) (spared : m.scheduler.killTask = false) : m.dying = none := by
  refine if_neg ?_
  rintro (kills | killed)
  · exact (quiet m.current _ kills).2 rfl
  · rw [spared] at killed
    cases killed

theorem Machine.Settled.quiet (settled : m.Settled) (unmoved : m.moved = none) (stays : Op.kill ∉ m.ops m.current) :
    m.Quiet := by
  intro u op there
  by_cases here : u = m.current
  · subst here
    refine ⟨?_, fun same => stays (same ▸ there)⟩
    cases ops : m.ops m.current with
    | nil =>
      rw [ops] at there
      cases there
    | cons first rest =>
      rw [ops] at there
      rcases mem_cons.mp there with rfl | later
      · unfold Machine.moved at unmoved
        rw [ops] at unmoved
        cases op <;> first | rfl | cases unmoved
      · refine settled.ordered.tails m.current op ?_
        rw [ops]
        exact later
  · exact settled.ordered.others u here op there

theorem Machine.Quiet.settled (quiet : m.Quiet) (spared : m.scheduler.killTask = false)
    (sound : m.scheduler.Sound m.live m.nextTaskId) (placed : m.scheduler.Placed m.live none none) :
    m.Settled := by
  refine ⟨sound, ⟨fun u op there => (quiet u op (mem_of_mem_tail there)).1,
    fun u _ op there => quiet u op there, fun kills => absurd rfl (quiet m.current _ kills).2, fun killed => ?_⟩,
    ?_, fun t place moved => ?_⟩
  · rw [spared] at killed
    cases killed
  · rw [quiet.dying spared, quiet.moved]
    exact placed
  · rw [quiet.moved] at moved
    cases moved

theorem Machine.Settled.exit (settled : m.Settled) (alone : m.dying = none) (cond : Object)
    (current : scheduler.current = m.current) (kill : scheduler.killTask = m.scheduler.killTask)
    (sound : scheduler.Sound m.live m.nextTaskId) (placed : scheduler.Placed m.live (some m.current) none) :
    Machine.Settled { m.goOn [.broadcast cond, .kill, .yield] with scheduler := scheduler } := by
  have spared : m.scheduler.killTask ≠ true := by
    intro killed
    have dies : m.dying = some m.current := if_pos (.inr killed)
    rw [alone] at dies
    cases dies
  have dies : Op.kill ∈ [.broadcast cond, .kill, .yield] := mem_cons_of_mem _ mem_cons_self
  refine settled.goOnWith [.broadcast cond, .kill, .yield] (fun op there => ?_) (fun _ => ?_) (fun killed => ?_)
    (if_pos (.inl dies)) current sound placed nofun m.count m.faulted
  · simp only [tail_cons, mem_cons, not_mem_nil, or_false] at there
    rcases there with rfl | rfl
    · rfl
    · rfl
  · refine ⟨[.broadcast cond], rfl, fun op there => ?_⟩
    rw [mem_singleton.mp there]
    rfl
  · rw [kill] at killed
    exact absurd killed spared

theorem Machine.Settled.kill (settled : m.Settled) (ops : m.ops m.current = .kill :: rest) :
    Machine.Settled { m.goOn rest with scheduler := { m.scheduler with killTask := true } } := by
  have kills : Op.kill ∈ m.ops m.current := by
    rw [ops]
    exact mem_cons_self
  obtain ⟨front, split, ending⟩ := settled.ordered.ending kills
  have last : rest = [.yield] := by
    rw [ops] at split
    cases front with
    | nil => exact (cons.inj split).2
    | cons first front =>
      have inside := ending first mem_cons_self
      rw [← (cons.inj split).1] at inside
      cases inside
  have dying : m.dying = some m.current := if_pos (.inl kills)
  have moved : m.moved = none := by
    unfold Machine.moved
    rw [ops]
    rfl
  subst last
  have sound := settled.sound
  have placed := settled.placed
  rw [dying, moved] at placed
  have after : Scheduler.Sound { m.scheduler with killTask := true } m.live m.nextTaskId :=
    { sound with linked := ⟨sound.linked.nodup, sound.linked.node⟩ }
  refine settled.goOnWith [.yield] nofun (fun kills => ?_) (fun _ => rfl) ?_ ?_ after
    (fun t alive other => (placed t alive other).congr rfl rfl) nofun m.count m.faulted
  · cases mem_singleton.mp kills
  · exact if_pos (.inr rfl)
  · rfl

theorem Call.program_plain (call : Call) : ∀ op ∈ call.program, op.plain = true ∧ op ≠ .kill := by
  have plain : call.program.all (fun op => op.plain && decide (op ≠ .kill)) = true := by
    cases call <;> rfl
  intro op there
  have both := all_eq_true.mp plain op there
  exact ⟨(Bool.and_eq_true_iff.mp both).1, of_decide_eq_true (Bool.and_eq_true_iff.mp both).2⟩

theorem Machine.Settled.call (settled : m.Settled) (ops : m.ops m.current = []) (call : Call) :
    (m.goOn call.program).Settled := by
  have spared : m.scheduler.killTask = false := by
    by_contra kills
    have killed := settled.ordered.killed (eq_true_of_ne_false kills)
    rw [ops] at killed
    cases killed
  have before : m.Quiet := by
    refine settled.quiet ?_ ?_
    · unfold Machine.moved
      rw [ops]
      rfl
    · rw [ops]
      exact not_mem_nil
  have after : (m.goOn call.program).Quiet := by
    intro u op there
    by_cases here : u = m.current
    · rw [here] at there
      rw [show (m.goOn call.program).ops m.current = call.program from update_self _ _ _] at there
      exact call.program_plain op there
    · rw [show (m.goOn call.program).ops u = m.ops u from update_of_ne here _ _] at there
      exact before u op there
  have placed := settled.placed
  rw [before.dying spared, before.moved] at placed
  exact after.settled spared settled.sound placed

theorem Machine.Settled.goOnPlain (settled : m.Settled) (front : List Op) (ops : m.ops m.current = op :: rest)
    (moves : op.plain = true) (yields : op ≠ .yield) (kills : op ≠ .kill) (plain : ∀ o ∈ front, o.plain = true)
    (spared : Op.kill ∉ front) (ends : op.ending = true → ∀ o ∈ front, o.ending = true) (count : Object → BitVec 32) :
    Machine.Settled { m.goOn (front ++ rest) with count := count } := by
  have still : m.moved = none := by
    unfold Machine.moved
    rw [ops]
    exact Op.moves_eq_none moves _
  have placed := settled.placed
  rw [still] at placed
  have after := moves_eq_none_of_plain plain m.current
  refine settled.goOn front ops yields kills (fun o there => plain o (mem_of_mem_tail there)) spared ends rfl rfl
    settled.sound ?_ ?_ count m.faulted
  · rw [after]
    exact placed
  · rw [after]
    exact fun t place moved => by cases moved

theorem Machine.Settled.goOnMove {place : Place} (settled : m.Settled) (first : Op)
    (ops : m.ops m.current = op :: rest) (yields : op ≠ .yield) (kills : op ≠ .kill)
    (moves : first.moves m.current = some (t, place)) (spared : first ≠ .kill)
    (ends : op.ending = true → first.ending = true) (current : scheduler.current = m.current)
    (kill : scheduler.killTask = m.scheduler.killTask) (sound : scheduler.Sound m.live m.nextTaskId)
    (placed : scheduler.Placed m.live m.dying (some (t, place)))
    (named : m.live t = true ∧ t ≠ idleTask ∧ m.dying ≠ some t) :
    Machine.Settled { m.goOn (first :: rest) with scheduler := scheduler } := by
  refine settled.goOn [first] ops yields kills (fun o there => absurd there not_mem_nil)
    (fun there => spared (mem_singleton.mp there).symm) (fun ending o there => ?_) current kill sound ?_ ?_
    m.count m.faulted
  · rw [mem_singleton.mp there]
    exact ends ending
  · change scheduler.Placed m.live m.dying (first.moves m.current)
    rw [moves]
    exact placed
  · intro u place' same
    rw [show [first].head?.bind (Op.moves m.current) = some (t, place) from moves] at same
    obtain ⟨rfl, -⟩ := Prod.mk.inj (some.inj same)
    exact named

theorem Machine.Settled.goOnListed (settled : m.Settled) (ops : m.ops m.current = op :: rest) (yields : op ≠ .yield)
    (kills : op ≠ .kill) (current : scheduler.current = m.current) (kill : scheduler.killTask = m.scheduler.killTask)
    (sound : scheduler.Sound m.live m.nextTaskId) (placed : scheduler.Placed m.live m.dying none) :
    Machine.Settled { m.goOn rest with scheduler := scheduler } :=
  settled.goOn [] ops yields kills (fun o there => absurd there not_mem_nil)
    (fun there => absurd there not_mem_nil) (fun _ o there => absurd there not_mem_nil) current kill sound
    placed (fun t place moved => by cases moved) m.count m.faulted

theorem Machine.Settled.moving {place : Place} (settled : m.Settled) (ops : m.ops m.current = op :: rest)
    (moves : op.moves m.current = some (t, place)) :
    m.scheduler.Placed m.live m.dying (some (t, place)) ∧ m.live t = true ∧ t ≠ idleTask ∧ m.dying ≠ some t := by
  have moved : m.moved = some (t, place) := by
    unfold Machine.moved
    rw [ops]
    exact moves
  have placed := settled.placed
  rw [moved] at placed
  exact ⟨placed, settled.named t place moved⟩

theorem Machine.Settled.still (settled : m.Settled) (ops : m.ops m.current = op :: rest)
    (plain : op.plain = true) : m.scheduler.Placed m.live m.dying none := by
  have moved : m.moved = none := by
    unfold Machine.moved
    rw [ops]
    exact Op.moves_eq_none plain _
  have placed := settled.placed
  rw [moved] at placed
  exact placed

theorem Machine.listAdd_of_free (m : Machine) (queue : Queue) (free : m.scheduler.node t = none) :
    m.listAdd queue t = { m with scheduler := m.scheduler.listAdd queue t } := by
  unfold Machine.listAdd
  rw [free]
  rfl

theorem Machine.Settled.perform (settled : m.Settled) (ops : m.ops m.current = op :: rest)
    (undisturbed : m.Undisturbed .exec) (performed : perform m rest op = some next) : next.Settled := by
  have sound := settled.sound
  have alive : m.live m.current = true := sound.current
  have found : m.Finds op := by
    refine undisturbed op ?_
    rw [ops]
    rfl
  cases op with
  | down semaphore =>
    simp only [Tasks.perform] at performed
    split at performed
    · rename_i zero
      have other : m.current ≠ idleTask := found.resolve_right fun some => some zero
      have alone := settled.not_dying ops rfl nofun nofun
      have still := settled.still ops rfl
      rw [alone] at still
      have left := (still.clear alive other nofun).dequeue alive other
      obtain ⟨free, listed⟩ := left.link alive other nofun (.semaphore semaphore)
      have after := ((sound.setRunning m.current false).listDel m.current).listAdd free alive other
        (.wait (.semaphore semaphore))
      rw [sound.remove_eq alive other] at performed
      have added := Machine.listAdd_of_free { m with
        scheduler := (m.scheduler.setTask m.current
          { m.scheduler.task m.current with running := false }).listDel m.current }
        (.wait (.semaphore semaphore)) free
      change some ((Machine.listAdd _ _ m.current).goOn _) = _ at performed
      rw [added] at performed
      obtain rfl := some.inj performed
      refine settled.goOn [.yield, .down semaphore] ops nofun nofun (by simp [Op.plain, Op.moves]) (by simp) nofun
        (by rfl) (by rfl) after ?_ nofun m.count m.faulted
      rw [alone]
      exact listed
    · obtain rfl := some.inj performed
      exact settled.goOnPlain [] ops rfl nofun nofun nofun nofun nofun _
  | inc semaphore =>
    obtain rfl := some.inj performed
    exact settled.goOnPlain [] ops rfl nofun nofun nofun nofun nofun _
  | test semaphore =>
    obtain rfl := some.inj performed
    split
    · exact settled.goOnPlain [] ops rfl nofun nofun nofun nofun nofun m.count
    · exact settled.goOnPlain [.first (.semaphore semaphore)] ops rfl nofun nofun (by simp [Op.plain, Op.moves])
        (by simp) nofun m.count
  | first list =>
    simp only [Tasks.perform] at performed
    split at performed
    · rename_i empty
      exact absurd empty found
    · rename_i t _ _
      obtain rfl := some.inj performed
      exact settled.goOnPlain [.unlink list t] ops rfl nofun nofun (by simp [Op.plain, Op.moves]) (by simp) nofun
        m.count
  | broadcast cond =>
    obtain rfl := some.inj performed
    exact settled.goOnPlain [.turn cond _] ops rfl nofun nofun (by simp [Op.plain, Op.moves]) (by simp)
      (by simp [Op.ending]) m.count
  | turn cond iter =>
    cases iter with
    | none =>
      obtain rfl := some.inj performed
      exact settled.goOnPlain [] ops rfl nofun nofun nofun nofun nofun m.count
    | some t =>
      simp only [Tasks.perform] at performed
      split at performed
      · obtain rfl := some.inj performed
        exact settled.goOnPlain [.unlink (.cond cond) t, .turn cond _] ops rfl nofun nofun
          (by simp [Op.plain, Op.moves]) (by simp) (by simp [Op.ending]) m.count
      · rename_i absent
        exact absurd found absent
  | unlink list t =>
    obtain rfl := some.inj performed
    obtain ⟨lives, other, differs, placed⟩ := (settled.still ops rfl).unlink sound found
    exact settled.goOnMove (.ready t) ops nofun nofun rfl nofun (fun _ => rfl) rfl rfl (sound.listDel t)
      placed ⟨lives, other, differs⟩
  | ready t =>
    obtain rfl := some.inj performed
    obtain ⟨placed, lives, other, differs⟩ := settled.moving ops rfl
    have after : (m.scheduler.ready t).Sound m.live m.nextTaskId := by
      rw [sound.ready_eq lives other]
      exact sound.setRunning t true
    exact settled.goOnMove (.enqueue t) ops nofun nofun rfl nofun (fun _ => rfl) rfl rfl after
      (placed.ready sound lives other) ⟨lives, other, differs⟩
  | enqueue t =>
    obtain ⟨placed, lives, other, differs⟩ := settled.moving ops rfl
    obtain ⟨free, listed⟩ := placed.enqueue lives other differs
    simp only [Tasks.perform, sound.enqueueTask_eq lives other, free, isSome_none, Bool.false_eq_true,
      ↓reduceIte, some.injEq] at performed
    rw [if_neg] at performed
    · subst performed
      exact settled.goOnListed ops nofun nofun rfl rfl (sound.listAdd free lives other _) listed
    · have after := sound.listAdd free lives other (.rr 0)
      rw [after.priority, after.priority]
      exact Int.lt_irrefl 0
  | clear list =>
    have other : m.current ≠ idleTask := found
    have policy := sound.policy m.current alive
    rw [if_neg other] at policy
    simp only [Tasks.perform] at performed
    split at performed
    · rename_i none
      rw [policy] at none
      cases none
    obtain rfl := some.inj performed
    have alone := settled.not_dying ops rfl nofun nofun
    have differs : m.dying ≠ some m.current := by
      rw [alone]
      nofun
    exact settled.goOnMove (.dequeue list) ops nofun nofun rfl nofun nofun rfl rfl
      (sound.setRunning m.current false) ((settled.still ops rfl).clear alive other differs) ⟨alive, other, differs⟩
  | dequeue list =>
    obtain rfl := some.inj performed
    obtain ⟨placed, lives, other, differs⟩ := settled.moving ops rfl
    exact settled.goOnMove (.link list) ops nofun nofun rfl nofun nofun rfl rfl (sound.listDel _)
      (placed.dequeue lives other) ⟨lives, other, differs⟩
  | link list =>
    obtain ⟨placed, lives, other, differs⟩ := settled.moving ops rfl
    obtain ⟨free, listed⟩ := placed.link lives other differs list
    simp only [Tasks.perform] at performed
    rw [Machine.listAdd_of_free m _ free] at performed
    obtain rfl := some.inj performed
    exact settled.goOnListed ops nofun nofun rfl rfl (sound.listAdd free lives other _) listed
  | yield => cases performed
  | exitClear =>
    have alone := settled.not_dying ops rfl nofun nofun
    have still := settled.still ops rfl
    by_cases idles : m.current = idleTask
    · have policy := sound.policy m.current alive
      rw [if_pos idles] at policy
      simp only [Tasks.perform, policy, some.injEq] at performed
      subst performed
      refine settled.exit alone _ rfl rfl sound ?_
      rw [alone] at still
      exact still.idle idles
    · have policy := sound.policy m.current alive
      rw [if_neg idles] at policy
      simp only [Tasks.perform] at performed
      split at performed
      · rename_i none
        rw [policy] at none
        cases none
      obtain rfl := some.inj performed
      have differs : m.dying ≠ some m.current := by
        rw [alone]
        nofun
      exact settled.goOnMove .exitDequeue ops nofun nofun rfl nofun nofun rfl rfl
        (sound.setRunning m.current false) (still.clear alive idles differs) ⟨alive, idles, differs⟩
  | exitDequeue =>
    obtain rfl := some.inj performed
    obtain ⟨placed, lives, other, differs⟩ := settled.moving ops rfl
    have alone := settled.not_dying ops rfl nofun nofun
    have left := placed.dequeue lives other
    rw [alone] at left
    exact settled.exit alone _ rfl rfl (sound.listDel _) left.die
  | kill =>
    obtain rfl := some.inj performed
    exact settled.kill ops
  | run =>
    obtain ⟨added, after, differs, dead, free⟩ := sound.run
    have alone := settled.not_dying ops rfl nofun nofun
    have still := settled.still ops rfl
    simp only [Tasks.perform, added, some.injEq] at performed
    rw [if_neg] at performed
    · subst performed
      refine settled.goOn [] ops nofun nofun nofun nofun nofun (by rfl) (by rfl) after ?_ nofun _ _
      rw [alone] at still ⊢
      exact still.run dead free
    · rw [after.priority, after.priority]
      exact Int.lt_irrefl 0

theorem mem_of_mem_afterSwitch {ops : List Op} (there : op ∈ afterSwitch ops) : op ∈ ops := by
  unfold afterSwitch at there
  split at there
  · exact mem_cons_of_mem _ there
  · exact there

theorem Machine.Settled.tick (settled : m.Settled) (undisturbed : m.Undisturbed .tick)
    (ticked : tick m = some next) : next.Settled := by
  obtain ⟨⟨unmoved, stays⟩, -⟩ := undisturbed
  have sound := settled.sound
  have before : m.Quiet := settled.quiet unmoved stays
  have placed := settled.placed
  rw [unmoved] at placed
  obtain ⟨scheduler, scheduled, rfl⟩ := map_eq_some_iff.mp ticked
  obtain ⟨t, queued, switched⟩ := schedule_switches sound.unlocked scheduled
  have alive : m.live t = true := by
    rcases queued with rfl | ⟨queue, there, -⟩
    · exact sound.idle
    · exact (sound.owned t queue ((sound.linked.node t queue).mp there)).1
  have places {dying : Option ℕ} (kill : Bool) (placed : m.scheduler.Placed m.live dying none) :
      ({ (schedRrPickTask m.scheduler).1 with current := t, needResched := false, killTask := kill } :
        Scheduler).Placed m.live dying none := by
    obtain ⟨-, node, task⟩ := sound.switch alive false kill
    intro u lives other
    exact (placed u lives other).congr (congrFun node u) (congrArg Task.running (congrFun task u))
  have quiet (ops : List Op) (kept : ∀ op ∈ ops, op ∈ m.ops m.current) (u) (op)
      (there : op ∈ update m.ops m.current ops u) : op.plain = true ∧ op ≠ .kill := by
    by_cases here : u = m.current
    · rw [here, update_self] at there
      exact before m.current op (kept op there)
    · rw [update_of_ne here] at there
      exact before u op there
  unfold switchTo at switched
  cases kill : m.scheduler.killTask with
  | false =>
    rw [before.dying kill] at placed
    rw [kill] at switched
    obtain rfl := some.inj switched
    have spared : (schedRrPickTask m.scheduler).1.killTask = false :=
      (schedRrPickTask_fields m.scheduler).2.2.trans kill
    rw [if_neg (fun dies => Bool.false_ne_true dies.1)]
    exact Machine.Quiet.settled (quiet _ fun op => mem_of_mem_afterSwitch) spared
      (sound.switch alive false _).1 (places _ placed)
  | true =>
    have dies : m.dying = some m.current := if_pos (.inr kill)
    rw [dies] at placed
    simp only [kill, ↓reduceIte, taskAnnihilate] at switched
    by_cases idles : m.scheduler.current = idleTask
    · rw [if_pos idles] at switched
      obtain rfl := some.inj switched
      rw [if_neg (fun dies => dies.2 idles)]
      refine Machine.Quiet.settled (quiet _ fun op => mem_of_mem_afterSwitch) rfl
        (sound.switch alive false false).1 ?_
      intro u lives other
      have there := places false placed u lives other
      rwa [show placeOf (some m.current) none u = placeOf none none u from
        if_neg fun same => other ((some.inj same).symm.trans idles)] at there
    · rw [if_neg idles] at switched
      split at switched
      · cases switched
      rename_i differs
      obtain rfl := some.inj switched
      have free : m.scheduler.node m.current = none := by
        have there := placed m.current sound.current idles
        rw [show placeOf (some m.current) none m.current = .lifted from if_pos rfl] at there
        exact there.1
      rw [if_pos ⟨rfl, idles⟩]
      have after := (sound.switch alive false false).1.listDel m.current
      refine Machine.Quiet.settled (quiet [] nofun) rfl
        (after.destroy (update_self _ _ _) idles differs) ?_
      intro u lives other
      change update m.live m.current false u = true at lives
      have apart : u ≠ m.current := by
        rintro rfl
        rw [update_self] at lives
        cases lives
      rw [update_of_ne apart] at lives
      have there := places false placed u lives other
      rw [show placeOf (some m.current) none u = placeOf none none u from
        if_neg fun same => apart (some.inj same).symm] at there
      have frame := Scheduler.listDel_frame { (schedRrPickTask m.scheduler).1 with
        current := t, needResched := false, killTask := false } m.current u apart
      exact there.congr frame.1 frame.2

/-- An undisturbed step keeps the machine settled. -/
theorem Machine.Settled.step {action : Action} (settled : m.Settled) (undisturbed : m.Undisturbed action)
    (stepped : step m action = some next) : next.Settled := by
  rcases step_cases stepped with ⟨call, -, ops, rfl⟩ | ⟨op, rest, rfl, ops, performed⟩ | ⟨rfl, ticked⟩
  · exact settled.call ops call
  · exact settled.perform ops undisturbed performed
  · exact settled.tick undisturbed ticked

/-- The machine that boots is settled. -/
theorem Machine.Settled.boot (config : Config) (values : ℕ → BitVec 32) : (boot config values).Settled := by
  have only (t) (alive : (Tasks.boot config values).live t = true) : t = idleTask := of_decide_eq_true alive
  refine Machine.Quiet.settled (fun u op there => absurd there not_mem_nil) rfl ?_
    (fun t alive other => absurd (only t alive) other)
  exact
    { linked := ⟨fun _ => nodup_nil, fun t queue => ⟨fun there => absurd there not_mem_nil, nofun⟩⟩
      owned := fun t queue node => by cases node
      priority := by
        intro t
        change (if t = idleTask then (⟨0, true, none⟩ : Task) else ⟨0, false, none⟩).priority = 0
        split <;> rfl
      policy := by
        intro t alive
        rw [if_pos (only t alive)]
        change (if t = idleTask then (⟨0, true, none⟩ : Task) else ⟨0, false, none⟩).policy = none
        split <;> rfl
      born := by
        intro t alive
        rw [only t alive]
        exact Nat.one_pos
      current := rfl
      idle := rfl
      unlocked := rfl }

end Settled

instance (m : Machine) (op : Op) : Decidable (m.Finds op) :=
  match op with
  | .unlink list t => inferInstanceAs (Decidable (t ∈ m.scheduler.queue (.wait list)))
  | .first list => inferInstanceAs (Decidable (m.scheduler.queue (.wait list) ≠ []))
  | .turn cond (some t) => inferInstanceAs (Decidable (t ∈ m.scheduler.queue (.wait (.cond cond))))
  | .down semaphore => inferInstanceAs (Decidable (m.current ≠ idleTask ∨ m.count semaphore ≠ 0))
  | .clear _ => inferInstanceAs (Decidable (m.current ≠ idleTask))
  | .turn _ none | .inc _ | .test _ | .broadcast _ | .ready _ | .enqueue _ | .dequeue _ | .link _ | .yield
  | .exitClear | .exitDequeue | .kill | .run => isTrue trivial

instance (m : Machine) (t : ℕ) : Decidable (m.Unused t) :=
  inferInstanceAs (Decidable (_ ∧ _ ∧ _))

instance (m : Machine) (action : Action) : Decidable (m.Undisturbed action) :=
  match action with
  | .call call => inferInstanceAs (Decidable (∀ op ∈ call.program, ∀ t ∈ op.names, m.live t = true))
  | .tick => inferInstanceAs (Decidable ((m.moved = none ∧ Op.kill ∉ m.ops m.current) ∧
      (m.scheduler.killTask = true → m.current ≠ idleTask → m.Unused m.current)))
  | .exec =>
    match same : (m.ops m.current).head? with
    | none => isTrue fun _ there => by
        rw [same] at there
        cases there
    | some op =>
      if found : m.Finds op then isTrue fun other there => by
        rw [same] at there
        exact Option.some.inj there ▸ found
      else isFalse fun finds => found (finds op same)

end Phabos.Tasks
