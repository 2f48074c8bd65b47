/-
The formatted printing of the kernel: `kprintf`, `kvprintf` and the printers of the single conversions.
-/

import Mathlib.Algebra.Ring.Int.Defs
import Mathlib.Algebra.Ring.Nat

namespace Phabos.Kprintf

def EINVAL : Int := 22

/-- An `int` keeps the low 32 bits of a value. -/
def int (value : Int) : Int := value.bmod (2 ^ 32)

structure FormatSpecifier where
  basePrefix : Bool
  leftPad0 : Bool
  width : Int
  precision : Int
  length : ℕ
  deriving Repr, DecidableEq

/-- What a printer returns, and the characters that it has passed to `kputc`. -/
structure Printed where
  returned : Int
  out : List Char
  deriving Repr, DecidableEq

/-- The words behind the format in the argument list, and the strings that words point to. A string is shorter than
half of the address space. -/
structure Arguments where
  word : ℕ → BitVec 32
  string : BitVec 32 → List Char
  short : ∀ address, (string address).length < 2 ^ 31

/-- The bases that the printers pass to `pr_unsigned`. -/
inductive Base where
  | binary
  | octal
  | decimal
  | hexadecimal
  deriving Repr, DecidableEq

def Base.value : Base → ℕ
  | .binary => 2
  | .octal => 8
  | .decimal => 10
  | .hexadecimal => 16

theorem Base.two_le (base : Base) : 2 ≤ base.value := by
  cases base <;> decide

def kputs (str : List Char) : Printed := ⟨str.length, str⟩

/-- The characters of `for (int i = from; i < to; i++) kputc(c)`. -/
def kputcLoop (start stop : Int) (c : Char) : List Char := List.replicate (stop - start).toNat c

def digit (offset : ℕ) : Char :=
  if 10 ≤ offset then Char.ofNat ('A'.toNat + offset - 10) else Char.ofNat ('0'.toNat + offset)

def FormatSpecifier.padding (fs : FormatSpecifier) : Char := if fs.leftPad0 then '0' else ' '

def prUnsigned (fs : FormatSpecifier) (num : ℕ) (base : Base) (recursion : Int) : Printed :=
  if base.value = 0 then ⟨- EINVAL, []⟩
  else if base.value ≤ num then
    let higher := prUnsigned fs (num / base.value) base (recursion + 1)
    if higher.returned < 0 then higher
    else ⟨1 + higher.returned, higher.out ++ [digit (num % base.value)]⟩
  else
    let precision := if fs.precision < 0 then 1 else fs.precision
    ⟨1, kputcLoop (int (recursion + precision - 1)) fs.width fs.padding ++ kputcLoop recursion precision '0' ++
      [digit (num % base.value)]⟩
termination_by num
decreasing_by
  have two := base.two_le
  exact Nat.div_lt_self (by omega) two

def printUnsignedNumber (fs : FormatSpecifier) (num : BitVec 32) (base : Base) : Printed :=
  prUnsigned fs num.toNat base 1

def printSignedNumber (fs : FormatSpecifier) (num : BitVec 32) : Printed :=
  let minus := decide (num.toInt < 0)
  let size : Int := if minus then 2 else 1
  let result := printUnsignedNumber fs (if minus then - num else num) .decimal
  let out := (if minus then ['-'] else []) ++ result.out
  if result.returned < 0 then ⟨result.returned, out⟩ else ⟨size + result.returned, out⟩

/-- The bodies of `print_hexa`, `print_octal` and `print_binary`, which differ in the prefix and the base. -/
def printBased (mark : List Char) (base : Base) (fs : FormatSpecifier) (nbr : BitVec 32) : Printed :=
  if fs.precision = 0 ∧ nbr = 0 then ⟨0, []⟩
  else
    let before := if fs.basePrefix then kputs mark else ⟨0, []⟩
    let number := printUnsignedNumber fs nbr base
    ⟨number.returned + before.returned, before.out ++ number.out⟩

def printHexa : FormatSpecifier → BitVec 32 → Printed := printBased ['0', 'x'] .hexadecimal

def printOctal : FormatSpecifier → BitVec 32 → Printed := printBased ['o'] .octal

def printBinary : FormatSpecifier → BitVec 32 → Printed := printBased ['b'] .binary

def prString (fs : FormatSpecifier) (str : List Char) : Printed :=
  let padding := kputcLoop str.length fs.width ' '
  if fs.precision < 0 then ⟨(kputs str).returned, padding ++ (kputs str).out⟩
  else
    let written := str.take fs.precision.toNat
    ⟨written.length, padding ++ written⟩

def isDigit (c : Char) : Bool := '0' ≤ c && c ≤ '9'

/-- The loop of `katoi`. The pointer is left at the last digit; there is no result where a character behind the
terminating NUL is read. -/
def katoiLoop (x : Int) (nread : ℕ) : List Char → Option (ℕ × Int × List Char)
  | c :: next :: rest =>
    let x := int (int (x * 10) + (c.toNat - '0'.toNat))
    if isDigit next then katoiLoop x (nread + 1) (next :: rest) else some (nread + 1, x, c :: next :: rest)
  | _ => none

def katoi (specifier : List Char) : Option (Except Int (ℕ × Int × List Char)) :=
  match specifier with
  | [] => none
  | c :: _ => if isDigit c then (katoiLoop 0 0 specifier).map .ok else some (.error (- EINVAL))

/-- How one pass of the loop of `print_from_specifier` ends: with an error, with `break` and the next pass, or with
the conversion that the pointer is at. -/
inductive Pass where
  | error (retval : Int)
  | again (fs : FormatSpecifier) (longCount : ℕ) (specifier : List Char)
  | convert

/-- The number at the pointer goes into a field of the specifier. -/
def readNumber (specifier : List Char) (longCount : ℕ) (set : Int → FormatSpecifier) : Option Pass :=
  match katoi specifier with
  | none => none
  | some (.error nread) => some (.error nread)
  | some (.ok (_, x, specifier)) => some (.again (set x) longCount specifier)

/-- The cases of the `switch` that read an option. -/
def readOption (fs : FormatSpecifier) (longCount : ℕ) (specifier : List Char) : Option Pass :=
  match specifier with
  | [] => none
  | c :: rest =>
    if c = '0' then readNumber specifier longCount fun x => { fs with leftPad0 := true, width := x }
    else if isDigit c then readNumber specifier longCount fun x => { fs with width := x }
    else if c = '#' then some (.again { fs with basePrefix := true } longCount specifier)
    else if c = 'l' then
      some (.again (if longCount = 1 then { fs with length := fs.length * 2 } else fs) (longCount + 1) specifier)
    else if c = 'z' then some (.again fs longCount specifier)
    else if c = 'h' then
      if fs.length / 2 = 0 then some (.error (- EINVAL))
      else some (.again { fs with length := fs.length / 2 } longCount specifier)
    else if c = '.' then readNumber rest longCount fun x => { fs with precision := x }
    else some .convert

/-- The loop of `print_from_specifier` up to the conversion, for a number of passes. -/
def readSpecifier : ℕ → FormatSpecifier → ℕ → List Char → Option (Except Int (FormatSpecifier × List Char))
  | 0, _, _, _ => none
  | _ + 1, _, _, [] => none
  | passes + 1, fs, longCount, _ :: specifier =>
    match readOption fs longCount specifier with
    | none => none
    | some (.error retval) => some (.error retval)
    | some (.again fs longCount specifier) => readSpecifier passes fs longCount specifier
    | some .convert => some (.ok (fs, specifier))

def FormatSpecifier.initial : FormatSpecifier := ⟨false, false, -1, -1, 4⟩

/-- The cases of the `switch` that print, and how many words of the argument list they have used. -/
def printConversion (arguments : Arguments) (fs : FormatSpecifier) (c : Char) (used : ℕ) : Printed × ℕ :=
  let word := arguments.word used
  if c = '%' then (⟨1, ['%']⟩, used)
  else if c = 's' then (prString fs (if word = 0 then "(null)".toList else arguments.string word), used + 1)
  else if c = 'c' then (⟨1, [Char.ofNat (word.toNat % 256)]⟩, used + 1)
  else if c = 'd' then (printSignedNumber fs word, used + 1)
  else if c = 'u' then (printUnsignedNumber fs word .decimal, used + 1)
  else if c = 'o' then (printOctal fs word, used + 1)
  else if c = 'x' ∨ c = 'X' then (printHexa fs word, used + 1)
  else if c = 'p' then
    (printHexa { fs with basePrefix := true, leftPad0 := false, precision := 4 * 2 } word, used + 1)
  else if c = 'b' then (printBinary fs word, used + 1)
  else (⟨- EINVAL, []⟩, used)

/-- The result, with the words used and the pointer, which is left at the conversion. -/
def printFromSpecifier (arguments : Arguments) (specifier : List Char) (used : ℕ) :
    Option (Printed × ℕ × List Char) :=
  match specifier with
  | [] => none
  | first :: _ =>
    if first ≠ '%' then some (⟨- EINVAL, []⟩, used, specifier)
    else
      match readSpecifier specifier.length .initial 0 specifier with
      | none => none
      | some (.error retval) => some (⟨retval, []⟩, used, specifier)
      | some (.ok (_, [])) => none
      | some (.ok (fs, c :: rest)) =>
        let (printed, used) := printConversion arguments fs c used
        some (printed, used, c :: rest)

/-- The loop over the format, for a number of passes. -/
def formatLoop (arguments : Arguments) : ℕ → List Char → ℕ → Int → Option Printed
  | 0, _, _, _ => none
  | _ + 1, [], _, _ => none
  | passes + 1, c :: rest, used, numBytePrinted =>
    if c = '\x00' then some ⟨numBytePrinted, []⟩
    else if c = '%' then
      match printFromSpecifier arguments (c :: rest) used with
      | none => none
      | some (result, used, format) =>
        if result.returned < 0 then some result
        else
          (formatLoop arguments passes format.tail used (int (numBytePrinted + result.returned))).map
            fun after => ⟨after.returned, result.out ++ after.out⟩
    else
      (formatLoop arguments passes rest used (int (numBytePrinted + 1))).map
        fun after => ⟨after.returned, c :: after.out⟩

/-- The characters of a format in memory, with the NUL behind them. -/
def terminated (format : List Char) : List Char := format ++ ['\x00']

/-- `kprintf`, with `none` for the null format. -/
def kprintf (format : Option (List Char)) (arguments : Arguments) : Option Printed :=
  match format with
  | none => some ⟨- EINVAL, []⟩
  | some format => formatLoop arguments (format.length + 1) (terminated format) 0 0

/-- `kvprintf`, which goes on in an argument list that words have been taken from. -/
def kvprintf (format : Option (List Char)) (ap : Arguments) (used : ℕ) : Option Printed :=
  match format with
  | none => some ⟨- EINVAL, []⟩
  | some format => formatLoop ap (format.length + 1) (terminated format) used 0

end Phabos.Kprintf
