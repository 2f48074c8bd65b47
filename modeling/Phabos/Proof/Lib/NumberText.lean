import Phabos.Construction.Lib.Kprintf
import Phabos.Library.Numeral

namespace Phabos.Kprintf
open Library List

/-- The characters of a number in a base. -/
def numberText (base : Base) (number : ℕ) : List Char := (numeral base.value number).map digit

/-- The digit that a character shows. -/
def digitValue (c : Char) : ℕ := if 'A' ≤ c then c.toNat - 'A'.toNat + 10 else c.toNat - '0'.toNat

@[simp] theorem digitValue_digit {offset : ℕ} (inRange : offset < 16) : digitValue (digit offset) = offset := by
  interval_cases offset <;> decide

theorem isDigit_digit {offset : ℕ} (inRange : offset < 10) : isDigit (digit offset) = true := by
  interval_cases offset <;> decide

theorem digit_ne_zero {offset : ℕ} (inRange : offset < 10) (positive : offset ≠ 0) : digit offset ≠ '0' := by
  interval_cases offset
  · exact absurd rfl positive
  all_goals decide

theorem digit_toNat {offset : ℕ} (inRange : offset < 10) : ((digit offset).toNat : Int) - '0'.toNat = offset := by
  interval_cases offset <;> decide

theorem Base.value_le (base : Base) : base.value ≤ 16 := by
  cases base <;> decide

@[simp] theorem numberText_length (base : Base) (number : ℕ) :
    (numberText base number).length = (numeral base.value number).length :=
  length_map digit

/-- The digits of a number have its value. -/
theorem numberText_value (base : Base) (number : ℕ) :
    numeralValue base.value ((numberText base number).map digitValue) = number := by
  have same : (numberText base number).map digitValue = numeral base.value number := by
    unfold numberText
    rw [map_map]
    calc (numeral base.value number).map (digitValue ∘ digit) = (numeral base.value number).map id := by
          apply map_congr_left
          intro offset here
          have less := lt_of_mem_numeral base.two_le here
          exact digitValue_digit (less.trans_le base.value_le)
      _ = numeral base.value number := map_id _
  rw [same, numeralValue_numeral]

theorem numberText_length_le (base : Base) (word : BitVec 32) : (numberText base word.toNat).length ≤ 32 := by
  rw [numberText_length]
  apply numeral_length_le base.two_le (by decide)
  calc word.toNat < 2 ^ 32 := word.isLt
    _ ≤ base.value ^ 32 := Nat.pow_le_pow_left base.two_le 32

theorem numberText_length_pos (base : Base) (number : ℕ) : 0 < (numberText base number).length := by
  rw [numberText_length]
  exact numeral_length_pos base.value number

theorem int_eq {value : Int} (low : -2 ^ 31 ≤ value) (high : value < 2 ^ 31) : int value = value := by
  unfold int
  rw [Int.bmod_eq_of_le (by omega) (by omega)]

theorem int_wrap {value : Int} (low : 2 ^ 31 ≤ value) (high : value < 2 ^ 32) : int value = value - 2 ^ 32 := by
  unfold int
  rw [← Int.sub_bmod_right, Int.bmod_eq_of_le (by omega) (by omega)]
  rfl

section Printers
variable (fs : FormatSpecifier)

/-- The precision that the deepest call of `pr_unsigned` uses. -/
def FormatSpecifier.digits : Int := if fs.precision < 0 then 1 else fs.precision

/-- What stands before the digits of a number that has `count` of them. -/
def FormatSpecifier.before (count : ℕ) : List Char :=
  kputcLoop (int (count + fs.digits - 1)) fs.width fs.padding ++ kputcLoop count fs.digits '0'

theorem prUnsigned_eq (base : Base) (num : ℕ) (recursion : ℕ) :
    prUnsigned fs num base (recursion + 1) =
      ⟨(numberText base num).length, fs.before (recursion + (numberText base num).length) ++ numberText base num⟩ := by
  induction num using Nat.strongRecOn generalizing recursion with
  | ind num inductionHypothesis =>
    have two := base.two_le
    rw [prUnsigned, if_neg (by omega)]
    by_cases le : base.value ≤ num
    · have less : num / base.value < num := Nat.div_lt_self (by omega) two
      have higher := inductionHypothesis (num / base.value) less (recursion + 1)
      rw [Nat.cast_succ] at higher
      have text : numberText base num = numberText base (num / base.value) ++ [digit (num % base.value)] := by
        unfold numberText
        rw [numeral_of_le two le, map_append, map_singleton]
      rw [if_pos le, higher, text]
      dsimp only
      rw [if_neg (by omega), length_append, length_singleton, append_assoc,
        show recursion + 1 + (numberText base (num / base.value)).length =
          recursion + ((numberText base (num / base.value)).length + 1) by omega]
      congr 1
      omega
    · have text : numberText base num = [digit (num % base.value)] := by
        unfold numberText
        rw [numeral_of_lt (by omega), Nat.mod_eq_of_lt (by omega), map_singleton]
      rw [if_neg le, text]
      rfl

theorem printUnsignedNumber_eq (num : BitVec 32) (base : Base) :
    printUnsignedNumber fs num base =
      ⟨(numberText base num.toNat).length,
        fs.before (numberText base num.toNat).length ++ numberText base num.toNat⟩ := by
  have printed := prUnsigned_eq fs base num.toNat 0
  rw [Nat.zero_add] at printed
  exact printed

theorem printUnsignedNumber_returned (num : BitVec 32) (base : Base) :
    ¬(printUnsignedNumber fs num base).returned < 0 := by
  rw [printUnsignedNumber_eq]
  exact not_lt.mpr (Int.natCast_nonneg _)

/-- The conversions of numbers. -/
inductive NumberConversion where
  | d
  | u
  | x
  | o
  | b
  deriving Repr, DecidableEq

namespace NumberConversion

def letter : NumberConversion → Char
  | d => 'd'
  | u => 'u'
  | x => 'x'
  | o => 'o'
  | b => 'b'

def base : NumberConversion → Base
  | d | u => .decimal
  | x => .hexadecimal
  | o => .octal
  | b => .binary

/-- Only `d` takes its argument as a signed number. -/
def negative (word : BitVec 32) : NumberConversion → Bool
  | d => decide (word.toInt < 0)
  | _ => false

def magnitude (word : BitVec 32) : NumberConversion → ℕ
  | d => word.toInt.natAbs
  | _ => word.toNat

/-- The characters of the absolute value. -/
def text (conversion : NumberConversion) (word : BitVec 32) : List Char :=
  numberText conversion.base (conversion.magnitude word)

def sign (conversion : NumberConversion) (word : BitVec 32) : List Char :=
  if conversion.negative word then ['-'] else []

end NumberConversion

theorem neg_toNat {word : BitVec 32} (negative : word.toInt < 0) : (- word).toNat = word.toInt.natAbs := by
  rw [BitVec.toNat_neg]
  have cases := BitVec.toInt_eq_toNat_cond word
  have less := word.isLt
  split at cases
  · omega
  · rw [Nat.mod_eq_of_lt (by omega)]
    omega

theorem natAbs_toInt {word : BitVec 32} (positive : ¬word.toInt < 0) : word.toInt.natAbs = word.toNat := by
  have cases := BitVec.toInt_eq_toNat_cond word
  have less := word.isLt
  split at cases
  · omega
  · omega

theorem printSignedNumber_eq (num : BitVec 32) :
    printSignedNumber fs num =
      ⟨(if num.toInt < 0 then 2 else 1) + (NumberConversion.d.text num).length,
        NumberConversion.d.sign num ++
          (fs.before (NumberConversion.d.text num).length ++ NumberConversion.d.text num)⟩ := by
  unfold printSignedNumber NumberConversion.text NumberConversion.sign NumberConversion.negative
    NumberConversion.magnitude NumberConversion.base
  dsimp only
  by_cases negative : num.toInt < 0
  · rw [decide_eq_true negative, if_pos rfl, if_pos rfl, if_pos rfl, if_pos negative,
      if_neg (printUnsignedNumber_returned fs (- num) .decimal), printUnsignedNumber_eq, neg_toNat negative]
  · rw [decide_eq_false negative, if_neg Bool.false_ne_true, if_neg Bool.false_ne_true, if_neg Bool.false_ne_true,
      if_neg negative, if_neg (printUnsignedNumber_returned fs num .decimal),
      printUnsignedNumber_eq, natAbs_toInt negative]

theorem printBased_out (mark : List Char) (base : Base) (nbr : BitVec 32) (precise : fs.precision ≠ 0)
    (plain : fs.basePrefix = false) :
    (printBased mark base fs nbr).out =
      fs.before (numberText base nbr.toNat).length ++ numberText base nbr.toNat := by
  unfold printBased
  rw [if_neg (fun both => precise both.1), plain, if_neg Bool.false_ne_true, printUnsignedNumber_eq]
  rfl

theorem printConversion_number (arguments : Arguments) (used : ℕ) (conversion : NumberConversion)
    (precise : fs.precision ≠ 0) (plain : fs.basePrefix = false) :
    ∃ printed, printConversion arguments fs conversion.letter used = (printed, used + 1) ∧
      printed.out = conversion.sign (arguments.word used) ++
        (fs.before (conversion.text (arguments.word used)).length ++ conversion.text (arguments.word used)) := by
  cases conversion with
  | d =>
    refine ⟨printSignedNumber fs (arguments.word used), rfl, ?_⟩
    rw [printSignedNumber_eq]
  | u =>
    refine ⟨printUnsignedNumber fs (arguments.word used) .decimal, rfl, ?_⟩
    rw [printUnsignedNumber_eq]
    rfl
  | x => exact ⟨printHexa fs (arguments.word used), rfl, printBased_out fs _ .hexadecimal _ precise plain⟩
  | o => exact ⟨printOctal fs (arguments.word used), rfl, printBased_out fs _ .octal _ precise plain⟩
  | b => exact ⟨printBinary fs (arguments.word used), rfl, printBased_out fs _ .binary _ precise plain⟩

end Printers

end Phabos.Kprintf
