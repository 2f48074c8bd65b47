import Phabos.Proof.Lib.FormatScan

namespace Phabos.Kprintf
open Library List

/-- Digits with leading zeros up to a precision. -/
def extended (precision : ℕ) (digits : List Char) : List Char :=
  List.replicate (precision - digits.length) '0' ++ digits

/-- A number with its sign at the right of a field. The padding is spaces before the sign or zeros behind it. -/
def justified (zero : Bool) (width : ℕ) (sign digits : List Char) : List Char :=
  if zero then sign ++ (List.replicate (width - (sign.length + digits.length)) '0' ++ digits)
  else List.replicate (width - (sign.length + digits.length)) ' ' ++ (sign ++ digits)

namespace Directive
variable (directive : Directive)

/-- The precision of a conversion, which is one where none is given. -/
def digits : ℕ := directive.precision.getD 1

/-- The characters that the conversion of a word stands for. -/
def field (word : BitVec 32) : List Char :=
  justified directive.zero directive.width (directive.conversion.sign word)
    (extended directive.digits (directive.conversion.text word))

/-- The padding that `pr_unsigned` computes from the number of digits and the precision is that of the field. -/
def Fits (word : BitVec 32) : Prop :=
  let count := (directive.conversion.text word).length
  count + directive.digits - 1 < 2 ^ 31 ∧
    if directive.conversion.negative word then
      directive.width ≤ 1 + max count directive.digits ∧ directive.width ≤ count + directive.digits - 1 ∨
        directive.zero = true ∧ min count directive.digits = 2
    else directive.width ≤ max count directive.digits ∨ min count directive.digits = 1

theorem digits_int : 1 ≤ directive.digits ∧ directive.digits < 2 ^ 31 := by
  unfold digits
  cases precision : directive.precision with
  | none => decide
  | some digits => exact directive.precision_int digits precision

variable {directive} in
/-- The deepest call pads with what the width leaves beside the count that it has computed, and then extends the
number. A count that does not fit an `int` is negative. -/
theorem Reads.before {fs : FormatSpecifier} (reads : directive.Reads fs) {count : ℕ} (few : count ≤ 32) :
    ∃ padded, fs.before count = replicate padded (if directive.zero then '0' else ' ') ++
        replicate (directive.digits - count) '0' ∧
      (count + directive.digits - 1 < 2 ^ 31 → padded = directive.width - (count + directive.digits - 1)) ∧
      (2 ^ 31 ≤ count + directive.digits - 1 → directive.width < padded) := by
  obtain ⟨one, digitsLess⟩ := directive.digits_int
  have digits : fs.digits = directive.digits := by
    unfold FormatSpecifier.digits Directive.digits
    rw [reads.precision]
    cases directive.precision with
    | none => rfl
    | some digits => exact if_neg (not_lt.mpr (Int.natCast_nonneg digits))
  refine ⟨(fs.width - int (count + directive.digits - 1)).toNat, ?_, fun fits => ?_, fun large => ?_⟩
  · unfold FormatSpecifier.before kputcLoop FormatSpecifier.padding
    rw [digits, reads.leftPad0]
    congr 2
    omega
  · rw [int_eq (by omega) (by omega)]
    obtain width | ⟨width, zero⟩ := reads.width
    · rw [width]
      omega
    · rw [width, zero]
      omega
  · rw [int_wrap (by omega) (by omega)]
    have widthLess := directive.width_int
    obtain width | ⟨width, zero⟩ := reads.width
    · rw [width]
      omega
    · rw [width, zero]
      omega

end Directive

section Justified
variable {zero : Bool} {width padded : ℕ} {digits : List Char}

theorem replicate_append_inj {c : Char} {first second : ℕ} (rest : List Char) :
    replicate first c ++ rest = replicate second c ++ rest ↔ first = second := by
  constructor
  · intro same
    have length := congrArg length same
    rw [length_append, length_append, length_replicate, length_replicate] at length
    omega
  · rintro rfl
    rfl

theorem justified_iff_of_zero (sign : List Char) :
    sign ++ (replicate padded '0' ++ digits) = justified true width sign digits ↔
      padded = width - (sign.length + digits.length) := by
  unfold justified
  rw [if_pos rfl, append_cancel_left_eq, replicate_append_inj]

theorem justified_iff_of_unsigned :
    replicate padded (if zero then '0' else ' ') ++ digits = justified zero width [] digits ↔
      padded = width - digits.length := by
  unfold justified
  cases zero with
  | true =>
    rw [if_pos rfl, if_pos rfl, nil_append, replicate_append_inj, length_nil, Nat.zero_add]
  | false =>
    rw [if_neg Bool.false_ne_true, if_neg Bool.false_ne_true, nil_append, replicate_append_inj,
      length_nil, Nat.zero_add]

theorem justified_iff_of_spaces :
    '-' :: (replicate padded ' ' ++ digits) = justified false width ['-'] digits ↔
      padded = 0 ∧ width ≤ 1 + digits.length := by
  unfold justified
  rw [if_neg Bool.false_ne_true, length_singleton]
  constructor
  · intro same
    cases spaces : width - (1 + digits.length) with
    | zero =>
      rw [spaces] at same
      have length := congrArg length same
      simp only [length_cons, length_append, length_replicate, length_nil] at length
      omega
    | succ spaces' =>
      rw [spaces, replicate_succ, cons_append, cons.injEq] at same
      exact absurd same.1 (by decide)
  · rintro ⟨rfl, fits⟩
    rw [Nat.sub_eq_zero_of_le fits]
    rfl

end Justified

theorem extended_length (precision : ℕ) (digits : List Char) :
    (extended precision digits).length = max digits.length precision := by
  unfold extended
  rw [length_append, length_replicate]
  omega

namespace NumberConversion
variable (conversion : NumberConversion) (word : BitVec 32)

theorem magnitude_lt : conversion.magnitude word < 2 ^ 32 := by
  cases conversion with
  | d =>
    have cases := BitVec.toInt_eq_toNat_cond word
    have less := word.isLt
    change word.toInt.natAbs < 2 ^ 32
    split at cases
    · omega
    · omega
  | u => exact word.isLt
  | x => exact word.isLt
  | o => exact word.isLt
  | b => exact word.isLt

theorem text_length_le : (conversion.text word).length ≤ 32 := by
  have same : (BitVec.ofNat 32 (conversion.magnitude word)).toNat = conversion.magnitude word :=
    Nat.mod_eq_of_lt (conversion.magnitude_lt word)
  have le := numberText_length_le conversion.base (BitVec.ofNat 32 (conversion.magnitude word))
  rw [same] at le
  exact le

end NumberConversion

namespace Directive
variable {directive : Directive}

/-- A number is printed as its field exactly when it fits. -/
theorem Reads.field_iff {fs : FormatSpecifier} (reads : directive.Reads fs) (word : BitVec 32) :
    directive.conversion.sign word ++ (fs.before (directive.conversion.text word).length ++
      directive.conversion.text word) = directive.field word ↔ directive.Fits word := by
  obtain ⟨padded, before, fits, large⟩ := reads.before (directive.conversion.text_length_le word)
  have some := numberText_length_pos directive.conversion.base (directive.conversion.magnitude word)
  change 0 < (directive.conversion.text word).length at some
  have few := directive.conversion.text_length_le word
  have one := directive.digits_int.1
  have less := directive.digits_int.2
  have length := extended_length directive.digits (directive.conversion.text word)
  rw [before, append_assoc]
  change directive.conversion.sign word ++ (replicate padded (if directive.zero then '0' else ' ') ++
    extended directive.digits (directive.conversion.text word)) = directive.field word ↔ _
  unfold field Fits NumberConversion.sign
  dsimp only
  cases negative : directive.conversion.negative word with
  | false =>
    rw [if_neg Bool.false_ne_true, if_neg Bool.false_ne_true, nil_append, justified_iff_of_unsigned, length]
    by_cases room : (directive.conversion.text word).length + directive.digits - 1 < 2 ^ 31
    · have padding := fits room
      omega
    · have more := large (not_lt.mp room)
      omega
  | true =>
    rw [if_pos rfl, if_pos rfl]
    cases zero : directive.zero with
    | true =>
      rw [if_pos rfl, justified_iff_of_zero, length, length_singleton]
      by_cases room : (directive.conversion.text word).length + directive.digits - 1 < 2 ^ 31
      · have padding := fits room
        simp only [true_and]
        omega
      · have more := large (not_lt.mp room)
        omega
    | false =>
      rw [if_neg Bool.false_ne_true, singleton_append, justified_iff_of_spaces, length]
      by_cases room : (directive.conversion.text word).length + directive.digits - 1 < 2 ^ 31
      · have padding := fits room
        simp only [Bool.false_eq_true, false_and, or_false]
        omega
      · have more := large (not_lt.mp room)
        omega

end Directive

/-- For every conversion of a number, the digits that are printed last read back as the absolute value, and the field
is the right one exactly when its padding fits. -/
theorem number_field_iff (arguments : Arguments) (directive : Directive) (rest : List Char) (used : ℕ) :
    ∃ printed, printFromSpecifier arguments (directive.text ++ rest) used =
        some (printed, used + 1, directive.conversion.letter :: rest) ∧
      (∃ before, printed.out = before ++ directive.conversion.text (arguments.word used)) ∧
      numeralValue directive.conversion.base.value
          ((directive.conversion.text (arguments.word used)).map digitValue) =
        directive.conversion.magnitude (arguments.word used) ∧
      (printed.out = directive.field (arguments.word used) ↔ directive.Fits (arguments.word used)) := by
  obtain ⟨fs, read, reads⟩ := directive.readSpecifier_text rest
  have precise : fs.precision ≠ 0 := by
    rw [reads.precision]
    cases precision : directive.precision with
    | none => decide
    | some digits =>
      have positive := (directive.precision_int digits precision).1
      rw [Option.elim_some]
      omega
  obtain ⟨printed, converted, out⟩ :=
    printConversion_number fs arguments used directive.conversion precise reads.basePrefix
  refine ⟨printed, ?_, ?_, numberText_value _ _, ?_⟩
  · unfold Directive.text at read ⊢
    rw [List.cons_append] at read ⊢
    unfold printFromSpecifier
    dsimp only
    rw [if_neg (not_not.mpr rfl), read]
    dsimp only
    rw [converted]
  · rw [← List.append_assoc] at out
    exact ⟨_, out⟩
  · rw [out]
    exact reads.field_iff (arguments.word used)

/-- A number with two digits and a precision of two stands one place too far left in a field of five. -/
theorem number_field_short :
    ∃ (arguments : Arguments) (directive : Directive), arguments.word 0 = 12 ∧ directive.text = "%5.2d".toList ∧
      directive.field (arguments.word 0) = "   12".toList ∧
      (printFromSpecifier arguments "%5.2d".toList 0).map (fun result => result.1.out) = some "  12".toList := by
  refine ⟨⟨fun _ => 12, fun _ => [], fun _ => by decide⟩,
    ⟨false, 5, some 2, [], .d, by decide, ?_, nofun, by decide⟩, rfl, ?_, ?_, ?_⟩
  · intro digits here
    obtain rfl := Option.some.inj here
    decide
  · decide
  · decide
  · change some (printSignedNumber ⟨false, false, 5, 2, 4⟩ 12).out = _
    rw [printSignedNumber_eq]
    decide

end Phabos.Kprintf
