import Phabos.Proof.Lib.NumberText

namespace Phabos.Kprintf
open Library List

section Katoi

theorem katoiLoop_digits {digits : List ℕ} (some : digits ≠ []) (inRange : ∀ offset ∈ digits, offset < 10)
    {next : Char} (stop : isDigit next = false) (rest : List Char) (x nread : ℕ)
    (short : x * 10 ^ digits.length + numeralValue 10 digits < 2 ^ 31) :
    ∃ count last, katoiLoop x nread (digits.map digit ++ next :: rest) =
      .some (count, ((x * 10 ^ digits.length + numeralValue 10 digits : ℕ) : Int), last :: next :: rest) := by
  induction digits generalizing x nread with
  | nil => exact absurd rfl some
  | cons offset digits inductionHypothesis =>
    have less := inRange offset mem_cons_self
    have value : numeralValue 10 (offset :: digits) = offset * 10 ^ digits.length + numeralValue 10 digits := by
      have split := numeralValue_append 10 [offset] digits
      have single := numeralValue_append_singleton 10 [] offset
      rw [nil_append, numeralValue_nil, Nat.zero_mul, Nat.zero_add] at single
      rw [single] at split
      exact split
    have moved : x * 10 ^ (offset :: digits).length + numeralValue 10 (offset :: digits) =
        (x * 10 + offset) * 10 ^ digits.length + numeralValue 10 digits := by
      rw [value, length_cons, Nat.pow_succ]
      ring
    rw [moved] at short ⊢
    have power : 0 < 10 ^ digits.length := Nat.pow_pos (by decide)
    have small : x * 10 + offset < 2 ^ 31 := by
      have le := Nat.le_mul_of_pos_right (x * 10 + offset) power
      omega
    have read : int (int ((x : Int) * 10) + ((digit offset).toNat - '0'.toNat)) = ((x * 10 + offset : ℕ) : Int) := by
      have shifted : int ((x : Int) * 10) = x * 10 := int_eq (by omega) (by omega)
      rw [digit_toNat less, shifted, int_eq (by omega) (by omega)]
      push_cast
      rfl
    rw [map_cons, cons_append]
    cases digits with
    | nil =>
      refine ⟨nread + 1, digit offset, ?_⟩
      rw [map_nil, nil_append, katoiLoop, read, stop]
      simp
    | cons second digits =>
      obtain ⟨count, last, found⟩ := inductionHypothesis (cons_ne_nil second digits)
        (fun other here => inRange other (mem_cons_of_mem offset here)) (x * 10 + offset) (nread + 1) short
      refine ⟨count, last, ?_⟩
      rw [map_cons, cons_append] at found ⊢
      rw [katoiLoop, read, isDigit_digit (inRange second (mem_cons_of_mem offset mem_cons_self))]
      exact found

theorem readNumber_digits {digits : List ℕ} (some : digits ≠ []) (inRange : ∀ offset ∈ digits, offset < 10)
    {next : Char} (stop : isDigit next = false) (rest : List Char) (short : numeralValue 10 digits < 2 ^ 31)
    (longCount : ℕ) (set : Int → FormatSpecifier) :
    ∃ last, readNumber (digits.map digit ++ next :: rest) longCount set =
      .some (.again (set (numeralValue 10 digits)) longCount (last :: next :: rest)) := by
  obtain ⟨count, last, read⟩ := katoiLoop_digits some inRange stop rest 0 0 (by omega)
  rw [Nat.zero_mul, Nat.zero_add, Nat.cast_zero] at read
  refine ⟨last, ?_⟩
  obtain ⟨first, later, rfl⟩ := exists_cons_of_ne_nil some
  rw [map_cons, cons_append] at read ⊢
  unfold readNumber katoi
  dsimp only
  rw [isDigit_digit (inRange first mem_cons_self), if_pos rfl, read]
  rfl

end Katoi

/-- The loop of `print_from_specifier` reads the options from a pointer on, in no more passes than there are
characters. -/
def Scans (fs : FormatSpecifier) (longCount : ℕ) (pointer : List Char)
    (result : Except Int (FormatSpecifier × List Char)) : Prop :=
  ∃ passes ≤ pointer.length, readSpecifier passes fs longCount pointer = some result

section Scans
variable {fs : FormatSpecifier} {longCount : ℕ} {result : Except Int (FormatSpecifier × List Char)}

theorem readSpecifier_mono {passes more : ℕ} (le : passes ≤ more) {pointer : List Char}
    (read : readSpecifier passes fs longCount pointer = some result) :
    readSpecifier more fs longCount pointer = some result := by
  induction passes generalizing more fs longCount pointer with
  | zero => cases read
  | succ passes inductionHypothesis =>
    obtain ⟨more, rfl⟩ := Nat.exists_eq_add_of_le' (Nat.lt_of_lt_of_le (Nat.succ_pos passes) le)
    cases pointer with
    | nil => cases read
    | cons first specifier =>
      unfold readSpecifier at read ⊢
      cases option : readOption fs longCount specifier with
      | none => rw [option] at read; cases read
      | some pass =>
        rw [option] at read
        cases pass with
        | error retval => exact read
        | convert => exact read
        | again fs longCount specifier => exact inductionHypothesis (Nat.le_of_succ_le_succ le) read

theorem Scans.read {pointer : List Char} (scans : Scans fs longCount pointer result) :
    readSpecifier pointer.length fs longCount pointer = some result := by
  obtain ⟨passes, le, read⟩ := scans
  exact readSpecifier_mono le read

theorem Scans.convert {before c : Char} {rest : List Char} (option : readOption fs longCount (c :: rest) = some .convert) :
    Scans fs longCount (before :: c :: rest) (.ok (fs, c :: rest)) := by
  refine ⟨1, Nat.succ_pos _, ?_⟩
  unfold readSpecifier
  rw [option]

theorem Scans.again {before : Char} {specifier next : List Char} {after : FormatSpecifier} {count : ℕ}
    (option : readOption fs longCount specifier = some (.again after count next)) (le : next.length ≤ specifier.length)
    (scans : Scans after count next result) : Scans fs longCount (before :: specifier) result := by
  obtain ⟨passes, few, read⟩ := scans
  refine ⟨passes + 1, Nat.succ_le_succ (few.trans le), ?_⟩
  unfold readSpecifier
  rw [option]
  exact read

end Scans

theorem NumberConversion.isDigit_letter (conversion : NumberConversion) : isDigit conversion.letter = false := by
  cases conversion <;> decide

/-- A letter of the text of a length. -/
def IsLength (c : Char) : Prop := c = 'l' ∨ c = 'z' ∨ c = 'h'

theorem IsLength.isDigit {c : Char} (length : IsLength c) : isDigit c = false := by
  obtain rfl | rfl | rfl := length
  all_goals decide

/-- A conversion of a number in a format, without the flag for a prefix. A width of zero is none, unless the flag for
zeros stands before it. -/
structure Directive where
  zero : Bool
  width : ℕ
  precision : Option ℕ
  lengths : List Char
  conversion : NumberConversion
  width_int : width < 2 ^ 31
  precision_int : ∀ digits ∈ precision, 1 ≤ digits ∧ digits < 2 ^ 31
  isLength : ∀ c ∈ lengths, IsLength c
  halves : lengths.count 'h' ≤ 2

namespace Directive
variable (directive : Directive)

def widthDigits : List ℕ :=
  (if directive.zero then [0] else []) ++ (if directive.width = 0 then [] else numeral 10 directive.width)

def precisionText : List Char :=
  match directive.precision with
  | none => []
  | some digits => '.' :: (numeral 10 digits).map digit

/-- What stands in the format. -/
def text : List Char :=
  '%' :: (directive.widthDigits.map digit ++ (directive.precisionText ++
    (directive.lengths ++ [directive.conversion.letter])))

/-- What `print_from_specifier` reads before it prints. -/
structure Reads (fs : FormatSpecifier) : Prop where
  basePrefix : fs.basePrefix = false
  leftPad0 : fs.leftPad0 = directive.zero
  width : fs.width = directive.width ∨ fs.width = -1 ∧ directive.width = 0
  precision : fs.precision = directive.precision.elim (-1) Nat.cast

theorem scans_lengths (conversion : NumberConversion) (rest : List Char) {lengths : List Char}
    (known : ∀ c ∈ lengths, IsLength c) {fs : FormatSpecifier} (long : 2 ^ lengths.count 'h' ≤ fs.length)
    (before : Char) (longCount : ℕ) :
    ∃ length, Scans fs longCount (before :: (lengths ++ conversion.letter :: rest))
      (.ok ({ fs with length := length }, conversion.letter :: rest)) := by
  induction lengths generalizing fs before longCount with
  | nil =>
    refine ⟨fs.length, Scans.convert ?_⟩
    cases conversion <;> rfl
  | cons c lengths inductionHypothesis =>
    have later : ∀ c ∈ lengths, IsLength c := fun other here => known other (mem_cons_of_mem c here)
    obtain rfl | rfl | rfl := known c mem_cons_self
    · rw [count_cons_of_ne (by decide)] at long
      by_cases second : longCount = 1
      · have longer : 2 ^ lengths.count 'h' ≤ ({ fs with length := fs.length * 2 } : FormatSpecifier).length := by
          dsimp only
          omega
        obtain ⟨length, scans⟩ := inductionHypothesis later longer 'l' (longCount + 1)
        refine ⟨length, Scans.again ?_ (Nat.le_refl _) scans⟩
        change some (Pass.again (if longCount = 1 then _ else _) _ _) = _
        rw [if_pos second]
      · obtain ⟨length, scans⟩ := inductionHypothesis later long 'l' (longCount + 1)
        refine ⟨length, Scans.again ?_ (Nat.le_refl _) scans⟩
        change some (Pass.again (if longCount = 1 then _ else _) _ _) = _
        rw [if_neg second]
    · rw [count_cons_of_ne (by decide)] at long
      obtain ⟨length, scans⟩ := inductionHypothesis later long 'z' longCount
      exact ⟨length, Scans.again rfl (Nat.le_refl _) scans⟩
    · rw [count_cons_self, Nat.pow_succ] at long
      have shorter : 2 ^ lengths.count 'h' ≤ ({ fs with length := fs.length / 2 } : FormatSpecifier).length := by
        dsimp only
        omega
      obtain ⟨length, scans⟩ := inductionHypothesis later shorter 'h' longCount
      refine ⟨length, Scans.again ?_ (Nat.le_refl _) scans⟩
      have positive : fs.length / 2 ≠ 0 := by
        have power : 0 < 2 ^ lengths.count 'h' := Nat.pow_pos (by decide)
        omega
      change (if fs.length / 2 = 0 then _ else _) = _
      rw [if_neg positive]

theorem stops (rest : List Char) :
    ∃ next later, directive.precisionText ++ (directive.lengths ++ directive.conversion.letter :: rest) =
      next :: later ∧ isDigit next = false := by
  unfold precisionText
  cases directive.precision with
  | some digits => exact ⟨'.', _, rfl, rfl⟩
  | none =>
    cases lengths : directive.lengths with
    | nil => exact ⟨_, _, rfl, directive.conversion.isDigit_letter⟩
    | cons c lengths =>
      have known := directive.isLength c (lengths ▸ mem_cons_self)
      exact ⟨c, _, rfl, known.isDigit⟩

theorem stops_lengths (rest : List Char) :
    ∃ next later, directive.lengths ++ directive.conversion.letter :: rest = next :: later ∧ isDigit next = false := by
  cases lengths : directive.lengths with
  | nil => exact ⟨_, _, rfl, directive.conversion.isDigit_letter⟩
  | cons c lengths =>
    have known := directive.isLength c (lengths ▸ mem_cons_self)
    exact ⟨c, _, rfl, known.isDigit⟩

theorem scans_precision (rest : List Char) {fs : FormatSpecifier} (four : fs.length = 4) (none : fs.precision = -1)
    (before : Char) (longCount : ℕ) :
    ∃ length, Scans fs longCount
      (before :: (directive.precisionText ++ (directive.lengths ++ directive.conversion.letter :: rest)))
      (.ok ({ fs with precision := directive.precision.elim (-1) Nat.cast, length := length },
        directive.conversion.letter :: rest)) := by
  have long : 2 ^ directive.lengths.count 'h' ≤ fs.length :=
    (Nat.pow_le_pow_right (by decide) directive.halves).trans four.ge
  unfold precisionText
  cases precision : directive.precision with
  | none =>
    obtain ⟨length, scans⟩ := scans_lengths directive.conversion rest directive.isLength long before longCount
    refine ⟨length, ?_⟩
    rw [Option.elim_none, ← none]
    exact scans
  | some digits =>
    have short := (directive.precision_int digits precision).2
    obtain ⟨next, later, same, stop⟩ := directive.stops_lengths rest
    obtain ⟨last, read⟩ := readNumber_digits (numeral_ne_nil 10 digits)
      (fun offset here => lt_of_mem_numeral (by decide) here) stop later (by rw [numeralValue_numeral]; exact short)
      longCount (fun x => { fs with precision := x })
    rw [numeralValue_numeral, ← same] at read
    have kept : 2 ^ directive.lengths.count 'h' ≤
        ({ fs with precision := (digits : Int) } : FormatSpecifier).length := long
    obtain ⟨length, scans⟩ := scans_lengths directive.conversion rest directive.isLength kept last longCount
    refine ⟨length, Scans.again read ?_ scans⟩
    simp only [cons_append, length_cons, length_append, length_map]
    have positive := numeral_length_pos 10 digits
    omega

theorem lt_of_mem_widthDigits {offset : ℕ} (here : offset ∈ directive.widthDigits) : offset < 10 := by
  unfold widthDigits at here
  rw [mem_append] at here
  cases here with
  | inl here =>
    split at here
    · rw [mem_singleton] at here
      omega
    · cases here
  | inr here =>
    split at here
    · cases here
    · exact lt_of_mem_numeral (by decide) here

theorem widthDigits_value : numeralValue 10 directive.widthDigits = directive.width := by
  unfold widthDigits
  rw [numeralValue_append]
  have zeros : numeralValue 10 (if directive.zero then [0] else []) = 0 := by
    split
    · rfl
    · rfl
  rw [zeros, Nat.zero_mul, Nat.zero_add]
  split
  · rename_i zero
    rw [zero, numeralValue_nil]
  · exact numeralValue_numeral 10 directive.width

theorem readOption_width {fs : FormatSpecifier} (plain : fs.leftPad0 = false) (longCount : ℕ)
    (some : directive.widthDigits ≠ []) {next : Char} (stop : isDigit next = false) (rest : List Char) :
    ∃ last, readOption fs longCount (directive.widthDigits.map digit ++ next :: rest) =
      .some (.again { fs with leftPad0 := directive.zero, width := directive.width } longCount (last :: next :: rest)) := by
  have read := readNumber_digits some (fun offset here => directive.lt_of_mem_widthDigits here) stop rest
    (directive.widthDigits_value ▸ directive.width_int) longCount
  rw [directive.widthDigits_value] at read
  cases zero : directive.zero with
  | true =>
    obtain ⟨last, read⟩ := read fun x => { fs with leftPad0 := true, width := x }
    refine ⟨last, Eq.trans ?_ read⟩
    have first : directive.widthDigits.map digit =
        '0' :: (if directive.width = 0 then [] else numeral 10 directive.width).map digit := by
      unfold widthDigits
      rw [if_pos zero]
      rfl
    rw [first]
    rfl
  | false =>
    obtain ⟨last, read⟩ := read fun x => { fs with width := x }
    rw [plain] at read
    refine ⟨last, Eq.trans ?_ read⟩
    have digits : directive.widthDigits = if directive.width = 0 then [] else numeral 10 directive.width := by
      unfold widthDigits
      rw [zero]
      rfl
    have positive : directive.width ≠ 0 := by
      intro width
      rw [if_pos width] at digits
      exact some digits
    rw [if_neg positive] at digits
    obtain ⟨first, later, same⟩ := exists_cons_of_ne_nil some
    have less := directive.lt_of_mem_widthDigits (same ▸ mem_cons_self)
    rw [same] at digits
    have nonzero := numeral_first_ne_zero positive digits.symm
    rw [same, map_cons, cons_append]
    unfold readOption
    dsimp only
    rw [if_neg (digit_ne_zero less nonzero), if_pos (isDigit_digit less), plain]

/-- A directive is read back from its text. -/
theorem readSpecifier_text (rest : List Char) :
    ∃ fs, readSpecifier (directive.text ++ rest).length .initial 0 (directive.text ++ rest) =
      some (.ok (fs, directive.conversion.letter :: rest)) ∧ directive.Reads fs := by
  have text : directive.text ++ rest = '%' :: (directive.widthDigits.map digit ++ (directive.precisionText ++
      (directive.lengths ++ directive.conversion.letter :: rest))) := by
    unfold Directive.text
    rw [cons_append, append_assoc, append_assoc, append_assoc, singleton_append]
  rw [text]
  by_cases empty : directive.widthDigits = []
  · obtain ⟨length, scans⟩ := directive.scans_precision rest (rfl : FormatSpecifier.initial.length = 4) rfl '%' 0
    have zero : directive.zero = false := by
      cases zero : directive.zero with
      | false => rfl
      | true =>
        unfold widthDigits at empty
        rw [zero, if_pos rfl] at empty
        cases empty
    have width : directive.width = 0 := by
      rw [← directive.widthDigits_value, empty, numeralValue_nil]
    rw [empty]
    exact ⟨_, scans.read, rfl, zero.symm, Or.inr ⟨rfl, width⟩, rfl⟩
  · obtain ⟨next, later, same, stop⟩ := directive.stops rest
    obtain ⟨last, option⟩ :=
      directive.readOption_width (rfl : FormatSpecifier.initial.leftPad0 = false) 0 empty stop later
    rw [← same] at option
    have four : ({ FormatSpecifier.initial with leftPad0 := directive.zero, width := directive.width } :
      FormatSpecifier).length = 4 := rfl
    obtain ⟨length, scans⟩ := directive.scans_precision rest four rfl last 0
    refine ⟨_, (Scans.again option ?_ scans).read, rfl, rfl, Or.inl rfl, rfl⟩
    simp only [length_cons, length_append, length_map]
    have positive := length_pos_iff.mpr empty
    omega

end Directive

end Phabos.Kprintf
