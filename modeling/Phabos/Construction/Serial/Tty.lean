import Mathlib.Logic.Function.Basic

/-
This file embeds the input queue of drivers/serial/tty.c. The receive interrupt pushes a character between any two
steps of a reader. A reader that waits for the mutex has no step.
-/

namespace Phabos.Serial

abbrev Byte := BitVec 8

/-- Where the reader with the mutex is in `tty_read` -/
inductive ReadPlace
  /-- before `semaphore_down` -/
  | waiting
  /-- The reader has a permit and has not yet copied its character. -/
  | copying
  /-- before the test of `rx_start` -/
  | wrapping
  /-- before the condition of the loop -/
  | testing
  deriving DecidableEq, Repr

structure Reader where
  task : Nat
  len : Nat
  buffer : List Byte
  place : ReadPlace
  deriving DecidableEq, Repr

/-- A character that was pushed, with the number of unread characters at that time -/
structure Arrival where
  char : Byte
  unread : Nat
  accepted : Bool
  deriving DecidableEq, Repr

/-- The input side of a `struct tty_device`. `arrivals`, `accepted`, `copied` and `returns` record what has happened;
a return comes with the length that was asked for. -/
structure Tty where
  rxBuffer : Nat → Byte
  rxStart : Nat
  rxEnd : Nat
  rxSemaphore : Nat
  reader : Option Reader
  arrivals : List Arrival
  accepted : List Byte
  copied : List Byte
  returns : List (Nat × List Byte)

/-- `tty_register` -/
def ttyRegister (rxBuffer : Nat → Byte) : Tty := ⟨rxBuffer, 0, 0, 0, none, [], [], [], []⟩

/-- The characters that have been accepted and not copied -/
def Tty.unread (tty : Tty) : Nat := tty.accepted.length - tty.copied.length

section Steps
variable (maxInput : Nat)

/-- `tty_push_to_input_queue` -/
def Tty.push (tty : Tty) (c : Byte) : Tty :=
  if tty.rxSemaphore = maxInput then { tty with arrivals := tty.arrivals ++ [⟨c, tty.unread, false⟩] }
  else
    { tty with
      rxBuffer := Function.update tty.rxBuffer tty.rxEnd c
      rxEnd := (tty.rxEnd + 1) % maxInput
      rxSemaphore := tty.rxSemaphore + 1
      arrivals := tty.arrivals ++ [⟨c, tty.unread, true⟩]
      accepted := tty.accepted ++ [c] }

/-- `buffer[nread++] = tty->rx_buffer[tty->rx_start++]` -/
def Tty.copy (tty : Tty) (reader : Reader) : Tty :=
  { tty with
    rxStart := tty.rxStart + 1
    copied := tty.copied ++ [tty.rxBuffer tty.rxStart]
    reader := some { reader with buffer := reader.buffer ++ [tty.rxBuffer tty.rxStart], place := .wrapping } }

def Tty.wrap (tty : Tty) (reader : Reader) : Tty :=
  { tty with
    rxStart := if maxInput ≤ tty.rxStart then 0 else tty.rxStart
    reader := some { reader with place := .testing } }

/-- `semaphore_down`, or a `semaphore_trydown` that succeeds -/
def Tty.down (tty : Tty) (reader : Reader) : Tty :=
  { tty with rxSemaphore := tty.rxSemaphore - 1, reader := some { reader with place := .copying } }

/-- `mutex_unlock` and the return -/
def Tty.finish (tty : Tty) (reader : Reader) : Tty :=
  { tty with reader := none, returns := tty.returns ++ [(reader.len, reader.buffer)] }

inductive Action
  | push (c : Byte)
  /-- A read gets the mutex. -/
  | read (task len : Nat)
  /-- The reader takes a step. -/
  | advance
  deriving DecidableEq, Repr

def Tty.advance (tty : Tty) (reader : Reader) : Option Tty :=
  match reader.place with
  | .waiting => if 0 < tty.rxSemaphore then some (tty.down reader) else none
  | .copying => some (tty.copy reader)
  | .wrapping => some (tty.wrap maxInput reader)
  | .testing =>
    if reader.buffer.length < reader.len ∧ 0 < tty.rxSemaphore then some (tty.down reader)
    else some (tty.finish reader)

def ttyStep (tty : Tty) : Action → Option Tty
  | .push c => some (tty.push maxInput c)
  | .read task len =>
    match tty.reader with
    | none => some { tty with reader := some ⟨task, len, [], .waiting⟩ }
    | some _ => none
  | .advance =>
    match tty.reader with
    | none => none
    | some reader => tty.advance maxInput reader

end Steps

/-- The reader has a permit and has not yet copied its character. -/
def Tty.copying (tty : Tty) : Bool := tty.reader.any fun reader => reader.place = .copying

/-- A read asks for a character at least. No character comes between the `semaphore_down` of a reader and its copy
while the ring is full of unread characters. -/
def Ordinary (maxInput : Nat) (tty : Tty) : Action → Prop
  | .push _ => ¬ (tty.copying = true ∧ tty.unread = maxInput)
  | .read _ len => 0 < len
  | .advance => True

instance (maxInput : Nat) (tty : Tty) (action : Action) : Decidable (Ordinary maxInput tty action) :=
  match action with
  | .push _ => inferInstanceAs (Decidable (¬ (_ ∧ _)))
  | .read _ len => inferInstanceAs (Decidable (0 < len))
  | .advance => isTrue trivial

end Phabos.Serial
