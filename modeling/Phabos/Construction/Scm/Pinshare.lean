import Phabos.Library.Masks

/-
This file embeds the sharing of pins in src/arch/arm/mach-tsb/scm.c. Each access to `pinshare_setting` and to the
pin-share register is one step of a task. While a task has interrupts off no other task takes a step.
-/

namespace Phabos.Scm

def EBUSY : Int := 16

/-- Pins, one for each bit of a `uint32_t` -/
abbrev Bits := BitVec 32

inductive Call where
  | requestPinshare (bits : Bits)
  | releasePinshare (bits : Bits)
  | setPinshare (bits : Bits)
  | clrPinshare (bits : Bits)
  deriving DecidableEq, Repr

/-- Where a task is in `irq_disable(); pinshare_setting = …; irq_enable();` -/
inductive Critical where
  | disable
  | load
  | store (setting : Bits)
  | enable
  deriving DecidableEq, Repr

/-- Where a task is in the update of the register by `tsb_set_pinshare` or `tsb_clr_pinshare` -/
inductive Access where
  | test
  | read
  | write (r : Bits)
  deriving DecidableEq, Repr

/-- What a task does next -/
inductive Place where
  | outside
  | requestTest (bits : Bits)
  | request (bits : Bits) (place : Critical)
  | release (bits : Bits) (place : Critical)
  | update (level : Bool) (bits : Bits) (place : Access)
  deriving DecidableEq, Repr

/-- The first access of a call -/
def Call.entry : Call → Place
  | .requestPinshare bits => .requestTest bits
  | .releasePinshare bits => .release bits .disable
  | .setPinshare bits => .update true bits .test
  | .clrPinshare bits => .update false bits .test

/-- A set or clear that has written the register, with the bits that its caller held -/
structure Update where
  level : Bool
  bits : Bits
  held : Bits
  deriving DecidableEq, Repr

/-- `pinshare_setting`, the register, the task that has interrupts off, and the tasks. The masks of the successful
requests that are not yet released stand in `granted`, less what their owners have released. -/
structure State (Task : Type) where
  setting : Bits
  register : Bits
  masked : Option Task
  place : Task → Place
  returned : Task → Int
  granted : List (Task × Bits)
  updates : List Update

section Steps
variable {Task : Type} [DecidableEq Task]

def State.start (register : Bits) : State Task := ⟨0, register, none, fun _ => .outside, fun _ => 0, [], []⟩

/-- The bits that a task holds -/
def State.held (s : State Task) (task : Task) : Bits :=
  Library.union ((s.granted.filter fun grant => grant.1 = task).map Prod.snd)

def State.goto (s : State Task) (task : Task) (place : Place) : State Task :=
  { s with place := Function.update s.place task place }

def State.return (s : State Task) (task : Task) (ret : Int) : State Task :=
  { s.goto task .outside with returned := Function.update s.returned task ret }

/-- The next access in `irq_disable(); pinshare_setting = change(pinshare_setting); irq_enable(); return 0;` -/
def State.critical (s : State Task) (task : Task) (part : Critical → Place) (change : Bits → Bits)
    (grant : List (Task × Bits) → List (Task × Bits)) : Critical → State Task
  | .disable => { s.goto task (part .load) with masked := some task }
  | .load => s.goto task (part (.store s.setting))
  | .store setting => { s.goto task (part .enable) with setting := change setting, granted := grant s.granted }
  | .enable => { s.return task 0 with masked := none }

/-- The test of `tsb_request_pinshare` -/
def State.tsbRequestPinshare (s : State Task) (task : Task) (bits : Bits) : State Task :=
  if s.setting &&& bits ≠ 0 then s.return task (- EBUSY) else s.goto task (.request bits .disable)

/-- The critical section of `tsb_request_pinshare` -/
def State.tsbRequestPinshareCritical (s : State Task) (task : Task) (bits : Bits) : Critical → State Task :=
  s.critical task (.request bits) (· ||| bits) (· ++ [(task, bits)])

/-- What the grants of a task lose when it releases bits -/
def release (task : Task) (bits : Bits) (granted : List (Task × Bits)) : List (Task × Bits) :=
  granted.map fun grant => if grant.1 = task then (task, grant.2 &&& ~~~ bits) else grant

def State.tsbReleasePinshare (s : State Task) (task : Task) (bits : Bits) : Critical → State Task :=
  s.critical task (.release bits) (· &&& ~~~ bits) (release task bits)

/-- `r | bits`, or `r & ~bits` -/
def apply (level : Bool) (bits r : Bits) : Bits := if level then r ||| bits else r &&& ~~~ bits

/-- What `tsb_set_pinshare` and `tsb_clr_pinshare` share -/
def State.update (s : State Task) (task : Task) (level : Bool) (bits : Bits) : Access → State Task
  | .test =>
    if s.setting &&& bits ≠ bits then s.goto task .outside else s.goto task (.update level bits .read)
  | .read => s.goto task (.update level bits (.write s.register))
  | .write r =>
    let update : Update := ⟨level, bits, s.held task⟩
    { s.goto task .outside with register := apply level bits r, updates := s.updates ++ [update] }

def State.tsbSetPinshare (s : State Task) (task : Task) (bits : Bits) : Access → State Task := s.update task true bits

def State.tsbClrPinshare (s : State Task) (task : Task) (bits : Bits) : Access → State Task := s.update task false bits

/-- The next access of a task -/
def State.access (s : State Task) (task : Task) : Option (State Task) :=
  match s.place task with
  | .outside => none
  | .requestTest bits => some (s.tsbRequestPinshare task bits)
  | .request bits place => some (s.tsbRequestPinshareCritical task bits place)
  | .release bits place => some (s.tsbReleasePinshare task bits place)
  | .update true bits place => some (s.tsbSetPinshare task bits place)
  | .update false bits place => some (s.tsbClrPinshare task bits place)

inductive Action (Task : Type) where
  | call (task : Task) (call : Call)
  | access (task : Task)
  deriving DecidableEq, Repr

/-- A task can take a step unless another one has interrupts off. -/
def State.Runs (s : State Task) (task : Task) : Prop := s.masked = none ∨ s.masked = some task

instance (s : State Task) (task : Task) : Decidable (s.Runs task) :=
  inferInstanceAs (Decidable (_ ∨ _))

def step (s : State Task) : Action Task → Option (State Task)
  | .call task call => if s.Runs task ∧ s.place task = .outside then some (s.goto task call.entry) else none
  | .access task => if s.Runs task then s.access task else none

end Steps

end Phabos.Scm
