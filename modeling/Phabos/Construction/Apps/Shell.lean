import Mathlib.Data.Int.Notation
import Mathlib.Data.Nat.Notation
import Mathlib.Logic.Function.Basic

/-
This file embeds the line editor and the history of apps/shell.c, without the output to the terminal. The allocations of
the history succeed.
-/

namespace Phabos.Apps

def commandLineMaxSize : ℕ := 4096

def historySize : ℕ := 10

/-- `buffer`, with the memory around it and whether all elements that were used are in the buffer -/
structure Buffer where
  byte : ℤ → UInt8
  inside : Bool

section Buffer
variable (b : Buffer)

def Buffer.touch (i : ℤ) : Buffer := { b with inside := b.inside && decide (0 ≤ i ∧ i < commandLineMaxSize) }

def Buffer.put (i : ℤ) (c : UInt8) : Buffer := { b.touch i with byte := Function.update b.byte i c }

def Buffer.copy (dst src : ℤ) : Buffer := (b.touch src).put dst (b.byte src)

/-- The characters up to an end and before the first NUL -/
def Buffer.text (eol : ℤ) : List UInt8 := ((List.range eol.toNat).map fun i : ℕ => b.byte i).takeWhile (· ≠ 0)

end Buffer

/-- The loop of `shell_readline` that closes the gap of a deleted character, with the number of turns -/
def closeGap : ℕ → ℤ → Buffer → Buffer
  | 0, _, b => b
  | turns + 1, i, b => closeGap turns (i + 1) (b.copy i (i + 1))

/-- The loop of `shell_readline` that makes room for a character, with the number of turns -/
def openGap : ℕ → ℤ → Buffer → Buffer
  | 0, _, b => b
  | turns + 1, i, b => openGap turns (i - 1) (b.copy (i + 1) i)

/-- The loops of `shell_readline` that print characters of the buffer, with the number of turns -/
def echo : ℕ → ℤ → Buffer → Buffer
  | 0, _, b => b
  | turns + 1, i, b => echo turns (i + 1) (b.touch i)

def strcpy : List UInt8 → ℤ → Buffer → Buffer
  | [], i, b => b.put i 0
  | c :: rest, i, b => strcpy rest (i + 1) (b.put i c)

/-- What the history gives as a command: the text of one, or the list head as if it were one -/
inductive Yield where
  | command (text : List UInt8)
  | head
  deriving DecidableEq, Repr

/-- The call of `shell_getc` that waits for a character: the one of `shell_readline`, or one of the two of
`shell_process_special_key` -/
inductive Waiting where
  | readline
  | escape
  | bracket
  deriving DecidableEq, Repr

/-- The variables of the shell. `history` has the commands from `history.next` on, and `historyIter` has a place in the
ring, where the list head is at 0. `lines` has what `shell_readline` left in the buffer, and `yields` has what the history
has given. -/
structure Shell where
  buffer : Buffer
  eol : ℤ
  cursorPos : ℤ
  waiting : Waiting
  history : List (List UInt8)
  historyCmdCount : ℕ
  historyIter : Option ℕ
  lines : List (List UInt8)
  yields : List Yield

/-- What is not in the shell: the text behind the list head where a command has its own, and what `shell_process_line`
leaves in the buffer -/
structure Around where
  behind : Shell → List UInt8
  processLine : (ℤ → UInt8) → ℤ → UInt8

/-- The shell when it waits for the first line -/
def Shell.start (byte : ℤ → UInt8) : Shell := ⟨⟨byte, true⟩, 0, 0, .readline, [], 0, none, [], []⟩

section Shell
variable (around : Around) (s : Shell)

/-- The next place in the ring -/
def Shell.after (place : ℕ) : ℕ := (place + 1) % (s.history.length + 1)

/-- The previous place in the ring -/
def Shell.before (place : ℕ) : ℕ := (place + s.history.length) % (s.history.length + 1)

/-- `list_entry` of a place -/
def Shell.entry : ℕ → Yield
  | 0 => .head
  | place + 1 => .command (s.history.getD place [])

def shellHistoryRewind : Shell := { s with historyIter := some 0 }

def shellHistoryNext : Option Yield × Shell :=
  let iter := s.before (s.historyIter.getD 0)
  if iter = 0 then (none, { s with historyIter := some (s.after iter) })
  else (some (s.entry iter), { s with historyIter := some iter })

def shellHistoryPrev : Option Yield × Shell :=
  match s.historyIter with
  | none | some 0 => (none, s)
  | some place =>
    let iter := s.after place
    (some (s.entry iter), { s with historyIter := some iter })

def shellHistoryAdd (command : List UInt8) : Shell :=
  -- The entry that is deleted is the one before the list head.
  let s := if historySize ≤ s.historyCmdCount then
    { s with history := s.history.dropLast, historyCmdCount := s.historyCmdCount - 1 } else s
  { s with history := s.history ++ [command], historyCmdCount := s.historyCmdCount + 1 }

/-- The command that the history gives becomes the line. -/
def Shell.load (cmd : Yield) : Shell :=
  let text := match cmd with
    | .command text => text
    | .head => around.behind s
  { s with
    eol := text.length, cursorPos := text.length, buffer := strcpy text 0 s.buffer, yields := s.yields ++ [cmd] }

/-- `shell_process_special_key`, from the last character on -/
def shellProcessSpecialKey (c : UInt8) : Shell :=
  if c = 65 then
    match shellHistoryNext s with
    | (none, s) => s
    | (some cmd, s) => s.load around cmd
  else if c = 66 then
    match shellHistoryPrev { s with eol := 0 } with
    | (none, s) => s
    | (some cmd, s) => s.load around cmd
  else if c = 67 then
    if s.eol ≤ s.cursorPos then s else { s with cursorPos := s.cursorPos + 1 }
  else if c = 68 then
    if s.cursorPos = 0 then s else { s with cursorPos := s.cursorPos - 1 }
  else s

/-- The end of `shell_readline` and the rest of the loop of `shell_main` -/
def Shell.finish : Shell :=
  let buffer := s.buffer.put s.eol 0
  let line := buffer.text s.eol
  let s := shellHistoryAdd { s with buffer := buffer, lines := s.lines ++ [line] } line
  let s := shellHistoryRewind s
  { s with
    buffer := { s.buffer with byte := around.processLine s.buffer.byte }, eol := 0, cursorPos := 0, waiting := .readline }

/-- The loop of `shell_readline` takes its next turn, where a negative number is a large one for the comparison. -/
def Shell.turn : Shell :=
  let s := { s with eol := s.eol + 1, waiting := .readline }
  if 0 ≤ s.eol ∧ s.eol < (commandLineMaxSize : ℤ) - 1 then s else s.finish around

/-- The case of the delete key in `shell_readline` -/
def Shell.delete : Shell :=
  if s.eol = 0 ∨ s.cursorPos = 0 then { s with eol := s.eol - 1 }
  else
    let cursorPos := s.cursorPos - 1
    let buffer := closeGap (s.eol - cursorPos).toNat cursorPos s.buffer
    { s with cursorPos := cursorPos, buffer := echo (s.eol - 1).toNat 0 buffer, eol := s.eol - 2 }

/-- The default case of `shell_readline` -/
def Shell.insert (c : UInt8) : Shell :=
  let buffer := openGap (s.eol - s.cursorPos + 1).toNat s.eol s.buffer
  let buffer := buffer.put s.cursorPos c
  { s with buffer := echo (s.eol - s.cursorPos + 1).toNat s.cursorPos buffer, cursorPos := s.cursorPos + 1 }

/-- A character comes in. -/
def Shell.getc (c : UInt8) : Shell :=
  match s.waiting with
  | .readline =>
    if c = 10 ∨ c = 13 then s.finish around
    else if c = 0x7f then s.delete.turn around
    else if c = 0x1b then { s with waiting := .escape }
    else if c = 9 then { s with eol := s.eol - 1 }.turn around
    else (s.insert c).turn around
  | .escape =>
    if c ≠ 91 then { s with eol := s.eol - 1 }.turn around
    else { s with waiting := .bracket }
  | .bracket =>
    let s := shellProcessSpecialKey around s c
    { s with eol := s.eol - 1 }.turn around

end Shell

/-- A character that has no meaning of its own for `shell_readline` -/
def Printable (c : UInt8) : Prop := 32 ≤ c ∧ c ≠ 0x7f

instance (c : UInt8) : Decidable (Printable c) := inferInstanceAs (Decidable (_ ∧ _))

/-- A line ends with either of two characters. -/
def Newline (c : UInt8) : Prop := c = 10 ∨ c = 13

instance (c : UInt8) : Decidable (Newline c) := inferInstanceAs (Decidable (_ ∨ _))

inductive Key where
  | char (c : UInt8) (printable : Printable c)
  | delete
  | tab
  | up
  | down
  | left
  | right
  | enter (c : UInt8) (newline : Newline c)

/-- The characters that the terminal sends for a key -/
def Key.chars : Key → List UInt8
  | .char c _ => [c]
  | .delete => [0x7f]
  | .tab => [9]
  | .up => [0x1b, 91, 65]
  | .down => [0x1b, 91, 66]
  | .right => [0x1b, 91, 67]
  | .left => [0x1b, 91, 68]
  | .enter c _ => [c]

def Shell.press (around : Around) (s : Shell) (key : Key) : Shell := key.chars.foldl (Shell.getc around) s

end Phabos.Apps
