import Phabos.Proof.Lib.NumberText

namespace Phabos.Kprintf
open List

/-- A pointer into a format, with the terminating NUL at the end of what is readable. -/
def Terminated (pointer : List Char) : Prop := ∃ text, pointer = terminated text

theorem Terminated.ne_nil {pointer : List Char} (ends : Terminated pointer) : pointer ≠ [] := by
  obtain ⟨text, rfl⟩ := ends
  exact append_ne_nil_of_right_ne_nil text (cons_ne_nil _ [])

theorem Terminated.tail {c : Char} {rest : List Char} (ends : Terminated (c :: rest)) (text : c ≠ '\x00') :
    Terminated rest := by
  obtain ⟨chars, same⟩ := ends
  cases chars with
  | nil => exact absurd (cons.inj same).1 text
  | cons first chars => exact ⟨chars, (cons.inj same).2⟩

theorem ne_nul_of_isDigit {c : Char} (digit : isDigit c = true) : c ≠ '\x00' := by
  rintro rfl
  cases digit

theorem katoiLoop_terminated {c : Char} {rest : List Char} (ends : Terminated rest) (x : Int) (nread : ℕ) :
    ∃ count value last later, katoiLoop x nread (c :: rest) = some (count, value, last :: later) ∧
      Terminated later ∧ later.length ≤ rest.length := by
  induction rest generalizing c x nread with
  | nil => exact absurd rfl ends.ne_nil
  | cons next rest inductionHypothesis =>
    unfold katoiLoop
    dsimp only
    cases digit : isDigit next with
    | false => exact ⟨_, _, c, next :: rest, rfl, ends, Nat.le_refl _⟩
    | true =>
      obtain ⟨count, value, last, later, read, same, le⟩ := inductionHypothesis
        (ends.tail (ne_nul_of_isDigit digit)) (int (int (x * 10) + (c.toNat - '0'.toNat))) (nread + 1)
      exact ⟨count, value, last, later, read, same, le.trans (Nat.le_succ _)⟩

/-- A pass that has read a number goes on behind it, and every error is `-EINVAL`. -/
structure Pass.Sound (pass : Pass) (specifier : List Char) : Prop where
  again : ∀ fs longCount next, pass = .again fs longCount next →
    next.length ≤ specifier.length ∧ ∃ last later, next = last :: later ∧ Terminated later
  error : ∀ retval, pass = .error retval → retval = - EINVAL

theorem readNumber_sound {specifier : List Char} (ends : Terminated specifier) (longCount : ℕ)
    (set : Int → FormatSpecifier) :
    ∃ pass, readNumber specifier longCount set = some pass ∧ pass.Sound specifier := by
  unfold readNumber katoi
  cases specifier with
  | nil => exact absurd rfl ends.ne_nil
  | cons c rest =>
    dsimp only
    cases digit : isDigit c with
    | false => exact ⟨_, rfl, nofun, fun retval same => (Pass.error.inj same).symm⟩
    | true =>
      obtain ⟨count, value, last, later, read, same, le⟩ :=
        katoiLoop_terminated (c := c) (ends.tail (ne_nul_of_isDigit digit)) 0 0
      rw [if_pos rfl, read]
      refine ⟨_, rfl, fun fs count next same' => ?_, nofun⟩
      obtain ⟨-, -, rfl⟩ := Pass.again.inj same'
      exact ⟨Nat.succ_le_succ le, last, later, rfl, same⟩

theorem readOption_sound {specifier : List Char} (ends : Terminated specifier) (fs : FormatSpecifier) (longCount : ℕ) :
    ∃ pass, readOption fs longCount specifier = some pass ∧ pass.Sound specifier := by
  have stays {c : Char} {rest : List Char} (ends : Terminated (c :: rest)) (known : c ≠ '\x00')
      (fs : FormatSpecifier) (longCount : ℕ) : (Pass.again fs longCount (c :: rest)).Sound (c :: rest) := by
    refine ⟨fun after count next same => ?_, nofun⟩
    obtain ⟨-, -, rfl⟩ := Pass.again.inj same
    exact ⟨Nat.le_refl _, c, rest, rfl, ends.tail known⟩
  cases specifier with
  | nil => exact absurd rfl ends.ne_nil
  | cons c rest =>
    unfold readOption
    dsimp only
    by_cases zero : c = '0'
    · rw [if_pos zero]
      exact readNumber_sound ends longCount _
    rw [if_neg zero]
    by_cases digit : isDigit c = true
    · rw [if_pos digit]
      exact readNumber_sound ends longCount _
    rw [if_neg digit]
    by_cases hash : c = '#'
    · rw [if_pos hash]
      exact ⟨_, rfl, stays ends (by rintro rfl; cases hash) _ _⟩
    rw [if_neg hash]
    by_cases long : c = 'l'
    · rw [if_pos long]
      exact ⟨_, rfl, stays ends (by rintro rfl; cases long) _ _⟩
    rw [if_neg long]
    by_cases size : c = 'z'
    · rw [if_pos size]
      exact ⟨_, rfl, stays ends (by rintro rfl; cases size) _ _⟩
    rw [if_neg size]
    by_cases half : c = 'h'
    · rw [if_pos half]
      split
      · exact ⟨_, rfl, nofun, fun retval same => (Pass.error.inj same).symm⟩
      · exact ⟨_, rfl, stays ends (by rintro rfl; cases half) _ _⟩
    rw [if_neg half]
    by_cases point : c = '.'
    · rw [if_pos point]
      obtain ⟨pass, read, sound⟩ := readNumber_sound (ends.tail (by rintro rfl; cases point)) longCount
        fun x => { fs with precision := x }
      refine ⟨pass, read, fun after count next same => ?_, sound.error⟩
      obtain ⟨le, found⟩ := sound.again after count next same
      exact ⟨le.trans (Nat.le_succ _), found⟩
    rw [if_neg point]
    exact ⟨_, rfl, nofun, nofun⟩

/-- The loop of `print_from_specifier` ends at a conversion or with `-EINVAL`, in no more passes than there are
characters, and reads none behind the NUL. -/
theorem readSpecifier_sound {passes : ℕ} {first : Char} {rest : List Char} (ends : Terminated rest)
    (enough : rest.length < passes) (fs : FormatSpecifier) (longCount : ℕ) :
    readSpecifier passes fs longCount (first :: rest) = some (.error (- EINVAL)) ∨
      ∃ after c later, readSpecifier passes fs longCount (first :: rest) = some (.ok (after, c :: later)) ∧
        Terminated (c :: later) ∧ later.length < rest.length := by
  induction passes generalizing first rest fs longCount with
  | zero => exact absurd enough (Nat.not_lt_zero _)
  | succ passes inductionHypothesis =>
    obtain ⟨pass, option, sound⟩ := readOption_sound ends fs longCount
    unfold readSpecifier
    rw [option]
    cases pass with
    | error retval =>
      left
      rw [sound.error retval rfl]
    | convert =>
      right
      obtain ⟨c, later, rfl⟩ := exists_cons_of_ne_nil ends.ne_nil
      exact ⟨fs, c, later, rfl, ends, Nat.lt_succ_self _⟩
    | again after count next =>
      obtain ⟨le, last, later, rfl, same⟩ := sound.again after count next rfl
      rw [length_cons] at le
      obtain refused | ⟨fs, c, later', read, there, less⟩ :=
        @inductionHypothesis last later same (by omega) after count
      · exact Or.inl refused
      · exact Or.inr ⟨fs, c, later', read, there, by omega⟩

/-- What one piece of a format adds to the count, the padding and the leading zeros that it prints, and whether it is
a signed number. -/
structure Share where
  counted : ℕ
  fill : ℕ
  signed : ℕ

/-- The characters of padding and the leading zeros before a number. -/
def FormatSpecifier.fill (fs : FormatSpecifier) (count : ℕ) : ℕ :=
  (fs.width - int (count + fs.digits - 1)).toNat + (fs.digits - count).toNat

def signedShare (fs : FormatSpecifier) (word : BitVec 32) : Share :=
  let count := (NumberConversion.d.text word).length
  ⟨count + (if word.toInt < 0 then 2 else 1), fs.fill count, 1⟩

def unsignedShare (fs : FormatSpecifier) (word : BitVec 32) (base : Base) : Share :=
  let count := (numberText base word.toNat).length
  ⟨count, fs.fill count, 0⟩

def basedShare (mark : ℕ) (base : Base) (fs : FormatSpecifier) (word : BitVec 32) : Share :=
  if fs.precision = 0 ∧ word = 0 then ⟨0, 0, 0⟩
  else
    let number := unsignedShare fs word base
    ⟨number.counted + (if fs.basePrefix then mark else 0), number.fill, 0⟩

def stringShare (fs : FormatSpecifier) (str : List Char) : Share :=
  ⟨if fs.precision < 0 then str.length else min fs.precision.toNat str.length, (fs.width - str.length).toNat, 0⟩

/-- The conversions that `print_from_specifier` supports, which take a word each but for `%`. -/
def share (arguments : Arguments) (fs : FormatSpecifier) (c : Char) (word : BitVec 32) : Option Share :=
  if c = '%' then some ⟨1, 0, 0⟩
  else if c = 's' then some (stringShare fs (if word = 0 then "(null)".toList else arguments.string word))
  else if c = 'c' then some ⟨1, 0, 0⟩
  else if c = 'd' then some (signedShare fs word)
  else if c = 'u' then some (unsignedShare fs word .decimal)
  else if c = 'o' then some (basedShare 1 .octal fs word)
  else if c = 'x' ∨ c = 'X' then some (basedShare 2 .hexadecimal fs word)
  else if c = 'p' then
    some (basedShare 2 .hexadecimal { fs with basePrefix := true, leftPad0 := false, precision := 4 * 2 } word)
  else if c = 'b' then some (basedShare 1 .binary fs word)
  else none

/-- A printer returns the count of its share. It prints the padding and the leading zeros beside that, and one
character less where the number is signed. -/
structure Printed.Shares (printed : Printed) (share : Share) : Prop where
  returned : printed.returned = share.counted
  length : printed.out.length + share.signed = share.counted + share.fill
  signed : 2 * share.signed ≤ share.counted

section Shares
variable (fs : FormatSpecifier)

theorem FormatSpecifier.before_length (count : ℕ) : (fs.before count).length = fs.fill count := by
  unfold FormatSpecifier.before FormatSpecifier.fill kputcLoop
  rw [length_append, length_replicate, length_replicate]

theorem printUnsignedNumber_shares (word : BitVec 32) (base : Base) :
    (printUnsignedNumber fs word base).Shares (unsignedShare fs word base) := by
  rw [printUnsignedNumber_eq]
  refine ⟨rfl, ?_, Nat.zero_le _⟩
  change (fs.before _ ++ _).length + 0 = (numberText base word.toNat).length + fs.fill _
  rw [length_append, fs.before_length]
  omega

theorem printSignedNumber_shares (word : BitVec 32) :
    (printSignedNumber fs word).Shares (signedShare fs word) := by
  have some := numberText_length_pos .decimal word.toInt.natAbs
  change 0 < (NumberConversion.d.text word).length at some
  rw [printSignedNumber_eq]
  unfold signedShare NumberConversion.sign NumberConversion.negative
  by_cases negative : word.toInt < 0
  · rw [if_pos negative, if_pos negative, decide_eq_true negative, if_pos rfl]
    refine ⟨Int.add_comm _ _, ?_, ?_⟩
    · dsimp only
      rw [length_append, length_append, fs.before_length, length_singleton]
      omega
    · dsimp only
      omega
  · rw [if_neg negative, if_neg negative, decide_eq_false negative, if_neg Bool.false_ne_true]
    refine ⟨Int.add_comm _ _, ?_, ?_⟩
    · dsimp only
      rw [length_append, length_append, fs.before_length, length_nil]
      omega
    · dsimp only
      omega

theorem printBased_shares (mark : List Char) (base : Base) (word : BitVec 32) :
    (printBased mark base fs word).Shares (basedShare mark.length base fs word) := by
  obtain ⟨returned, length, signed⟩ := printUnsignedNumber_shares fs word base
  unfold printBased basedShare
  by_cases nothing : fs.precision = 0 ∧ word = 0
  · rw [if_pos nothing, if_pos nothing]
    exact ⟨rfl, rfl, Nat.le_refl _⟩
  · rw [if_neg nothing, if_neg nothing]
    have zero : (unsignedShare fs word base).signed = 0 := rfl
    cases fs.basePrefix with
    | false =>
      rw [if_neg Bool.false_ne_true, if_neg Bool.false_ne_true]
      refine ⟨?_, ?_, Nat.zero_le _⟩
      · dsimp only
        omega
      · dsimp only
        rw [nil_append]
        omega
    | true =>
      rw [if_pos rfl, if_pos rfl]
      refine ⟨?_, ?_, Nat.zero_le _⟩
      · unfold kputs
        dsimp only
        omega
      · unfold kputs
        dsimp only
        rw [length_append]
        omega

theorem prString_shares (str : List Char) : (prString fs str).Shares (stringShare fs str) := by
  unfold prString stringShare kputcLoop kputs
  dsimp only
  split
  · refine ⟨rfl, ?_, Nat.zero_le _⟩
    dsimp only
    rw [length_append, length_replicate]
    omega
  · refine ⟨?_, ?_, Nat.zero_le _⟩
    · dsimp only
      rw [length_take]
    · dsimp only
      rw [length_append, length_replicate, length_take]
      omega

end Shares

theorem printConversion_shares (arguments : Arguments) (fs : FormatSpecifier) (c : Char) (used : ℕ) :
    (∃ shared, share arguments fs c (arguments.word used) = some shared ∧
      (printConversion arguments fs c used).1.Shares shared ∧
      (printConversion arguments fs c used).2 = (if c = '%' then used else used + 1) ∧ c ≠ '\x00') ∨
    share arguments fs c (arguments.word used) = none ∧
      (printConversion arguments fs c used).1 = ⟨- EINVAL, []⟩ := by
  unfold share printConversion
  dsimp only
  by_cases percent : c = '%'
  · rw [if_pos percent, if_pos percent]
    exact Or.inl ⟨_, rfl, ⟨rfl, rfl, Nat.zero_le _⟩, (if_pos percent).symm, by rintro rfl; cases percent⟩
  rw [if_neg percent, if_neg percent]
  by_cases string : c = 's'
  · rw [if_pos string, if_pos string]
    exact Or.inl ⟨_, rfl, prString_shares fs _, (if_neg percent).symm, by rintro rfl; cases string⟩
  rw [if_neg string, if_neg string]
  by_cases char : c = 'c'
  · rw [if_pos char, if_pos char]
    exact Or.inl ⟨_, rfl, ⟨rfl, rfl, Nat.zero_le _⟩, (if_neg percent).symm, by rintro rfl; cases char⟩
  rw [if_neg char, if_neg char]
  by_cases signed : c = 'd'
  · rw [if_pos signed, if_pos signed]
    exact Or.inl ⟨_, rfl, printSignedNumber_shares fs _, (if_neg percent).symm, by rintro rfl; cases signed⟩
  rw [if_neg signed, if_neg signed]
  by_cases unsigned : c = 'u'
  · rw [if_pos unsigned, if_pos unsigned]
    exact Or.inl ⟨_, rfl, printUnsignedNumber_shares fs _ .decimal, (if_neg percent).symm, by rintro rfl; cases unsigned⟩
  rw [if_neg unsigned, if_neg unsigned]
  by_cases octal : c = 'o'
  · rw [if_pos octal, if_pos octal]
    exact Or.inl ⟨_, rfl, printBased_shares fs _ .octal _, (if_neg percent).symm, by rintro rfl; cases octal⟩
  rw [if_neg octal, if_neg octal]
  by_cases hexa : c = 'x' ∨ c = 'X'
  · rw [if_pos hexa, if_pos hexa]
    exact Or.inl ⟨_, rfl, printBased_shares fs _ .hexadecimal _, (if_neg percent).symm, by rintro rfl; revert hexa; decide⟩
  rw [if_neg hexa, if_neg hexa]
  by_cases pointer : c = 'p'
  · rw [if_pos pointer, if_pos pointer]
    exact Or.inl ⟨_, rfl, printBased_shares { fs with basePrefix := true, leftPad0 := false, precision := 4 * 2 }
      ['0', 'x'] .hexadecimal _, (if_neg percent).symm, by rintro rfl; cases pointer⟩
  rw [if_neg pointer, if_neg pointer]
  by_cases binary : c = 'b'
  · rw [if_pos binary, if_pos binary]
    exact Or.inl ⟨_, rfl, printBased_shares fs _ .binary _, (if_neg percent).symm, by rintro rfl; cases binary⟩
  rw [if_neg binary, if_neg binary]
  exact Or.inr ⟨rfl, rfl⟩

/-- What a format and its arguments ask for: the shares of the literal characters and the conversions up to the end
or to the first that is not supported, and whether there is one such. -/
structure Request where
  shares : List Share
  refused : Bool

namespace Request

def counted (request : Request) : ℕ := (request.shares.map Share.counted).sum

def fill (request : Request) : ℕ := (request.shares.map Share.fill).sum

def signed (request : Request) : ℕ := (request.shares.map Share.signed).sum

def cons (first : Share) (request : Request) : Request := ⟨first :: request.shares, request.refused⟩

end Request

/-- The request of a format, for a number of passes. -/
def request (arguments : Arguments) : ℕ → List Char → ℕ → Option Request
  | 0, _, _ => none
  | _ + 1, [], _ => none
  | passes + 1, c :: rest, used =>
    if c = '\x00' then some ⟨[], false⟩
    else if c = '%' then
      match readSpecifier (c :: rest).length .initial 0 (c :: rest) with
      | none => none
      | some (.error _) => some ⟨[], true⟩
      | some (.ok (_, [])) => none
      | some (.ok (fs, letter :: rest)) =>
        match share arguments fs letter (arguments.word used) with
        | none => some ⟨[], true⟩
        | some first =>
          (request arguments passes rest (if letter = '%' then used else used + 1)).map (Request.cons first)
    else (request arguments passes rest used).map (Request.cons ⟨1, 0, 0⟩)

/-- A call that is not refused returns its count, and prints the shares of its request. -/
structure Request.Answers (request : Request) (count : Int) (printed : Printed) : Prop where
  refused : request.refused = true → printed.returned = - EINVAL
  returned : request.refused = false → printed.returned = int (count + request.counted)
  length : request.refused = false → printed.out.length + request.signed = request.counted + request.fill
  signed : 2 * request.signed ≤ request.counted

theorem int_int_add (value added : Int) : int (int value + added) = int (value + added) := by
  unfold int
  rw [Int.bmod_add_bmod]

theorem int_int (value : Int) : int (int value) = int value := by
  have same := int_int_add value 0
  rw [Int.add_zero, Int.add_zero] at same
  exact same

section PrintFromSpecifier
variable (arguments : Arguments) {rest : List Char} (used : ℕ)

theorem printFromSpecifier_error
    (read : readSpecifier ('%' :: rest).length .initial 0 ('%' :: rest) = some (.error (- EINVAL))) :
    printFromSpecifier arguments ('%' :: rest) used = some (⟨- EINVAL, []⟩, used, '%' :: rest) := by
  unfold printFromSpecifier
  dsimp only
  rw [if_neg (not_not.mpr rfl), read]

theorem printFromSpecifier_ok {fs : FormatSpecifier} {c : Char} {later : List Char}
    (read : readSpecifier ('%' :: rest).length .initial 0 ('%' :: rest) = some (.ok (fs, c :: later))) :
    printFromSpecifier arguments ('%' :: rest) used =
      some ((printConversion arguments fs c used).1, (printConversion arguments fs c used).2, c :: later) := by
  unfold printFromSpecifier
  dsimp only
  rw [if_neg (not_not.mpr rfl), read]

end PrintFromSpecifier

theorem Request.Answers.cons {asked : Request} {count : Int} {first : Share} {out : List Char} {after : Printed}
    (answers : asked.Answers (int (count + first.counted)) after)
    (length : out.length + first.signed = first.counted + first.fill) (signed : 2 * first.signed ≤ first.counted) :
    (asked.cons first).Answers count ⟨after.returned, out ++ after.out⟩ := by
  obtain ⟨refused, returned, total, signs⟩ := answers
  refine ⟨refused, fun accepted => ?_, fun accepted => ?_, ?_⟩
  · have here := returned accepted
    dsimp only
    rw [here, int_int_add]
    unfold Request.counted Request.cons
    rw [map_cons, sum_cons, Nat.cast_add, Int.add_assoc]
  · have here := total accepted
    unfold Request.counted Request.fill Request.signed Request.cons at *
    simp only [map_cons, sum_cons, length_append]
    omega
  · unfold Request.counted Request.signed Request.cons at *
    simp only [map_cons, sum_cons]
    omega

/-- The loop answers what the format asks for. -/
theorem formatLoop_answers (arguments : Arguments) {passes : ℕ} {format : List Char} (ends : Terminated format)
    (enough : format.length ≤ passes) (used : ℕ) {count : Int} (counts : int count = count) :
    ∃ asked printed, request arguments passes format used = some asked ∧
      formatLoop arguments passes format used count = some printed ∧ asked.Answers count printed := by
  induction passes generalizing format used count with
  | zero => exact absurd (length_eq_zero_iff.mp (Nat.le_zero.mp enough)) ends.ne_nil
  | succ passes inductionHypothesis =>
    obtain ⟨c, rest, rfl⟩ := exists_cons_of_ne_nil ends.ne_nil
    have few : rest.length ≤ passes := Nat.le_of_succ_le_succ enough
    unfold request formatLoop
    by_cases nul : c = '\x00'
    · rw [if_pos nul, if_pos nul]
      refine ⟨_, _, rfl, rfl, nofun, fun _ => ?_, fun _ => rfl, Nat.le_refl _⟩
      exact ((congrArg int (Int.add_zero count)).trans counts).symm
    rw [if_neg nul, if_neg nul]
    have text := ends.tail nul
    by_cases percent : c = '%'
    · rw [if_pos percent, if_pos percent]
      subst percent
      obtain refused | ⟨fs, letter, later, read, there, less⟩ :=
        @readSpecifier_sound ('%' :: rest).length '%' rest text (Nat.lt_succ_self _) .initial 0
      · rw [refused, printFromSpecifier_error arguments used refused]
        exact ⟨_, _, rfl, rfl, fun _ => rfl, nofun, nofun, Nat.le_refl _⟩
      · rw [read, printFromSpecifier_ok arguments used read]
        dsimp only
        obtain ⟨first, supported, shares, words, known⟩ | ⟨unsupported, refused⟩ :=
          printConversion_shares arguments fs letter used
        · obtain ⟨asked, after, requested, printed, answers⟩ := inductionHypothesis (there.tail known)
            (Nat.le_of_lt (less.trans_le few)) (if letter = '%' then used else used + 1)
            (int_int (count + first.counted))
          rw [supported, words, shares.returned, if_neg (not_lt.mpr (Int.natCast_nonneg first.counted))]
          dsimp only
          rw [tail_cons, requested, printed]
          exact ⟨_, _, rfl, rfl, answers.cons shares.length shares.signed⟩
        · rw [unsupported, refused]
          exact ⟨_, _, rfl, rfl, fun _ => rfl, nofun, nofun, Nat.le_refl _⟩
    · rw [if_neg percent, if_neg percent]
      obtain ⟨asked, after, requested, printed, answers⟩ :=
        inductionHypothesis text few used (int_int (count + 1))
      rw [requested, printed]
      have one : [c].length + (Share.mk 1 0 0).signed = (Share.mk 1 0 0).counted + (Share.mk 1 0 0).fill := rfl
      exact ⟨_, _, rfl, rfl, answers.cons one (Nat.zero_le _)⟩

/-- The call is refused, its count has gone past the range of an `int` to a negative value, or the count fits and
there are as many signed numbers as characters of padding and leading zeros. -/
def Request.Balanced (request : Request) : Prop :=
  request.refused = true ∨ int request.counted < 0 ∨ request.counted < 2 ^ 31 ∧ request.signed = request.fill

/-- The call ends, and a value that is not negative is the number of printed characters where the request is
balanced. -/
def Request.Counts (request : Request) (result : Option Printed) : Prop :=
  ∃ printed, result = some printed ∧
    ((0 ≤ printed.returned → printed.returned = printed.out.length) ↔ request.Balanced)

theorem Request.Answers.counts {asked : Request} {printed : Printed} (answers : asked.Answers 0 printed) :
    asked.Counts (some printed) := by
  obtain ⟨refused, returned, length, signed⟩ := answers
  refine ⟨printed, rfl, ?_⟩
  unfold Request.Balanced
  cases accepted : asked.refused with
  | true =>
    rw [refused accepted]
    exact ⟨fun _ => Or.inl rfl, fun _ negative => absurd negative (by decide)⟩
  | false =>
    have value := returned accepted
    have total := length accepted
    rw [Int.zero_add] at value
    rw [value]
    constructor
    · intro same
      right
      by_cases negative : int asked.counted < 0
      · exact Or.inl negative
      · right
        have equal := same (not_lt.mp negative)
        -- The count is that of the characters modulo the range of an `int`, and both differ by less than that.
        unfold int at equal
        rw [Int.bmod_def] at equal
        split at equal
        · omega
        · omega
    · rintro (impossible | negative | ⟨fits, same⟩) positive
      · cases impossible
      · exact absurd positive (not_le.mpr negative)
      · rw [int_eq (by omega) (by omega)]
        omega

/-- For every format and every argument list the call ends without a read behind the terminating NUL, and it reports
the number of printed characters exactly when the request is balanced. -/
theorem printed_count_iff (arguments : Arguments) (format : List Char) :
    (∃ asked, request arguments (format.length + 1) (terminated format) 0 = some asked ∧
      asked.Counts (kprintf (some format) arguments)) ∧
    ∀ used, ∃ asked, request arguments (format.length + 1) (terminated format) used = some asked ∧
      asked.Counts (kvprintf (some format) arguments used) := by
  have enough : (terminated format).length ≤ format.length + 1 := by
    unfold terminated
    rw [List.length_append, List.length_singleton]
  have each (used : ℕ) : ∃ asked, request arguments (format.length + 1) (terminated format) used = some asked ∧
      asked.Counts (kvprintf (some format) arguments used) := by
    obtain ⟨asked, printed, requested, result, answers⟩ :=
      formatLoop_answers arguments ⟨format, rfl⟩ enough used (rfl : int 0 = 0)
    refine ⟨asked, requested, ?_⟩
    unfold kvprintf
    dsimp only
    rw [result]
    exact answers.counts
  exact ⟨each 0, each⟩

/-- One digit of a signed number is counted twice. -/
theorem printed_count_signed :
    ∃ arguments printed, arguments.word 0 = 5 ∧ kprintf (some "%d".toList) arguments = some printed ∧
      printed.returned = 2 ∧ printed.out.length = 1 := by
  obtain ⟨asked, printed, requested, result, answers⟩ :=
    formatLoop_answers ⟨fun _ => 5, fun _ => [], fun _ => by decide⟩ ⟨"%d".toList, rfl⟩
      (Nat.le_refl (terminated "%d".toList).length) 0 (rfl : int 0 = 0)
  obtain rfl := Option.some.inj requested
  refine ⟨_, printed, rfl, result, ?_, ?_⟩
  · rw [answers.returned rfl]
    decide
  · have length := answers.length rfl
    change printed.out.length + 1 = 2 + 0 at length
    omega

end Phabos.Kprintf
