import Phabos.Construction.Apps.Shell
import Phabos.Library.Run
import Mathlib.Data.List.DropRight

namespace Phabos.Apps
open Library Function List

def Key.enters : Key → Bool
  | .enter _ _ => true
  | _ => false

/-- The reference editor: the characters on the two sides of the cursor, from the cursor on, the lines that were entered,
the place in the history, which is 0 for a line of its own, and the commands that the history gave. -/
structure Editor where
  front : List UInt8
  back : List UInt8
  lines : List (List UInt8)
  place : ℕ
  shown : List (List UInt8)
  deriving DecidableEq, Repr

section Editor
variable (e : Editor)

def Editor.start : Editor := ⟨[], [], [], 0, []⟩

def Editor.text : List UInt8 := e.front.reverse ++ e.back

/-- The last commands -/
def Editor.history : List (List UInt8) := e.lines.rtake historySize

/-- A command of the history, with 0 for the newest one -/
def Editor.command (age : ℕ) : Option (List UInt8) := e.history.reverse[age]?

/-- A command becomes the line, with the cursor at its end. -/
def Editor.show (place : ℕ) (command : List UInt8) : Editor :=
  { e with front := command.reverse, back := [], place := place, shown := e.shown ++ [command] }

def Editor.up : Editor :=
  match e.command e.place with
  | none => e
  | some command => e.show (e.place + 1) command

/-- Behind the newest command comes the empty line. -/
def Editor.down : Editor :=
  match e.place with
  | 0 | 1 => { e with front := [], back := [], place := 0 }
  | place + 2 =>
    match e.command place with
    | none => e
    | some command => e.show (place + 1) command

def Editor.left : Editor :=
  match e.front with
  | [] => e
  | c :: front => { e with front := front, back := c :: e.back }

def Editor.right : Editor :=
  match e.back with
  | [] => e
  | c :: back => { e with front := c :: e.front, back := back }

/-- The effect of a key on the line -/
def Editor.edit : Key → Editor
  | .char c _ => { e with front := c :: e.front }
  | .delete => { e with front := e.front.tail }
  | .tab | .enter _ _ => e
  | .up => e.up
  | .down => e.down
  | .left => e.left
  | .right => e.right

def Editor.entered : Editor := ⟨[], [], e.lines ++ [e.text], 0, e.shown⟩

/-- A line ends with a newline or when the buffer has no room for another character. -/
def Editor.Ends (key : Key) : Prop := key.enters = true ∨ (e.edit key).text.length + 1 = commandLineMaxSize

instance (key : Key) : Decidable (e.Ends key) := inferInstanceAs (Decidable (_ ∨ _))

def Editor.press (key : Key) : Editor := if e.Ends key then (e.edit key).entered else e.edit key

end Editor

/-- What is promised of the shell after a key -/
structure Faithful (s : Shell) (e : Editor) : Prop where
  lines : s.lines = e.lines
  inside : s.buffer.inside = true
  cursor : 0 ≤ s.cursorPos ∧ s.cursorPos ≤ s.eol
  history : s.history = s.lines.rtake historySize
  yields : s.yields = e.shown.map .command

/-- Down is not pressed on the newest command, nor with text before the cursor on a line that is not in the history, and
no line ends when a full history has commands that differ. -/
structure Harmless (e : Editor) (key : Key) : Prop where
  down : key = .down → e.place ≠ 1 ∧ (e.place = 0 → e.front = [])
  ends : e.Ends key → e.history.length < historySize ∨ e.history.dropLast = e.history.tail

/-- A string that the buffer has room for -/
def Plain (text : List UInt8) : Prop := (∀ c ∈ text, c ≠ 0) ∧ text.length < commandLineMaxSize

/-- The lines of an editor have room in the buffer, and its place is in the history. -/
structure Editor.Proper (e : Editor) : Prop where
  text : Plain e.text
  stored : ∀ line ∈ e.lines, Plain line
  place : e.place ≤ e.history.length

/-- The characters are in the buffer. -/
def Holds (byte : ℤ → UInt8) (text : List UInt8) : Prop := ∀ (i : ℕ) (c : UInt8), text[i]? = some c → byte i = c

/-- The history and the lines of the shell for an editor -/
structure Stores (s : Shell) (e : Editor) : Prop where
  inside : s.buffer.inside = true
  history : s.history = e.history
  count : s.historyCmdCount = e.history.length
  lines : s.lines = e.lines
  yields : s.yields = e.shown.map .command
  proper : e.Proper

/-- The place in the ring for a place of an editor -/
def At (iter : Option ℕ) (e : Editor) : Prop :=
  iter.getD 0 = if e.place = 0 then 0 else e.history.length + 1 - e.place

/-- The state of the shell for an editor, with the end of the line as the loop tests it -/
structure Alike (s : Shell) (e : Editor) : Prop where
  stores : Stores s e
  eol : s.eol = e.text.length
  cursor : s.cursorPos = e.front.length
  holds : Holds s.buffer.byte e.text
  iter : At s.historyIter e

/-- The shell waits for a key of a line that is not full. -/
structure Waits (s : Shell) (e : Editor) : Prop where
  alike : Alike s e
  waiting : s.waiting = .readline
  room : e.text.length + 1 < commandLineMaxSize

section Buffer
variable {b : Buffer} {turns : ℕ} {i : ℤ} {text front back : List UInt8} {c : UInt8}

/-- An index in the buffer -/
def Inside (i : ℤ) : Prop := 0 ≤ i ∧ i < commandLineMaxSize

@[simp] theorem touch_byte : (b.touch i).byte = b.byte := rfl

theorem touch_inside (kept : b.inside = true) (inside : Inside i) : (b.touch i).inside = true := by
  simp only [Buffer.touch, kept, Bool.true_and, decide_eq_true_eq]
  exact inside

theorem put_inside (kept : b.inside = true) (inside : Inside i) : (b.put i c).inside = true := touch_inside kept inside

theorem copy_inside {dst src : ℤ} (kept : b.inside = true) (first : Inside dst) (second : Inside src) :
    (b.copy dst src).inside = true := put_inside (touch_inside kept second) first

theorem closeGap_byte (j : ℤ) :
    (closeGap turns i b).byte j = if i ≤ j ∧ j < i + turns then b.byte (j + 1) else b.byte j := by
  induction turns generalizing i b with
  | zero => rw [closeGap, if_neg (by omega)]
  | succ turns ih =>
    rw [closeGap, ih]
    by_cases here : j = i
    · subst here
      rw [if_neg (by omega), if_pos (by omega)]
      exact update_self ..
    · have other : (b.copy i (i + 1)).byte j = b.byte j := update_of_ne here ..
      by_cases later : i + 1 ≤ j ∧ j < i + 1 + turns
      · rw [if_pos later, if_pos (by omega)]
        exact update_of_ne (by omega) ..
      · rw [if_neg later, if_neg (by omega), other]

theorem closeGap_inside (kept : b.inside = true) (low : 0 ≤ i) (high : i + turns < commandLineMaxSize) :
    (closeGap turns i b).inside = true := by
  induction turns generalizing i b with
  | zero => exact kept
  | succ turns ih =>
    refine ih (copy_inside kept ⟨low, ?_⟩ ⟨?_, ?_⟩) ?_ ?_ <;> omega

theorem openGap_byte (j : ℤ) :
    (openGap turns i b).byte j = if i + 1 - turns < j ∧ j ≤ i + 1 then b.byte (j - 1) else b.byte j := by
  induction turns generalizing i b with
  | zero => rw [openGap, if_neg (by omega)]
  | succ turns ih =>
    rw [openGap, ih]
    by_cases here : j = i + 1
    · subst here
      rw [if_neg (by omega), if_pos (by omega), Int.add_sub_cancel]
      exact update_self ..
    · have other : (b.copy (i + 1) i).byte j = b.byte j := update_of_ne here ..
      by_cases later : i - 1 + 1 - turns < j ∧ j ≤ i - 1 + 1
      · rw [if_pos later, if_pos (by omega)]
        exact update_of_ne (by omega) ..
      · rw [if_neg later, if_neg (by omega), other]

theorem openGap_inside (kept : b.inside = true) (low : -1 ≤ i - turns) (high : i + 1 < commandLineMaxSize) :
    (openGap turns i b).inside = true := by
  induction turns generalizing i b with
  | zero => exact kept
  | succ turns ih =>
    refine ih (copy_inside kept ⟨?_, high⟩ ⟨?_, ?_⟩) ?_ ?_ <;> omega

@[simp] theorem echo_byte : (echo turns i b).byte = b.byte := by
  induction turns generalizing i b with
  | zero => rfl
  | succ turns ih => rw [echo, ih, touch_byte]

theorem echo_inside (kept : b.inside = true) (low : 0 ≤ i) (high : i + turns ≤ commandLineMaxSize) :
    (echo turns i b).inside = true := by
  induction turns generalizing i b with
  | zero => exact kept
  | succ turns ih =>
    refine ih (touch_inside kept ⟨low, ?_⟩) ?_ ?_ <;> omega

theorem strcpy_before {j : ℤ} (before : j < i) : (strcpy text i b).byte j = b.byte j := by
  induction text generalizing i b with
  | nil => exact update_of_ne (Int.ne_of_lt before) ..
  | cons c text ih => rw [strcpy, ih (by omega)]; exact update_of_ne (Int.ne_of_lt before) ..

theorem strcpy_byte {j : ℕ} (there : text[j]? = some c) : (strcpy text i b).byte (i + j) = c := by
  induction text generalizing i b j with
  | nil => cases there
  | cons first text ih =>
    rw [strcpy]
    cases j with
    | zero =>
      rw [strcpy_before (by omega), Int.natCast_zero, Int.add_zero]
      exact (update_self ..).trans (Option.some.inj there)
    | succ j =>
      rw [Int.natCast_succ, Int.add_comm j, ← Int.add_assoc]
      exact ih there

theorem strcpy_inside (kept : b.inside = true) (low : 0 ≤ i) (high : i + text.length < commandLineMaxSize) :
    (strcpy text i b).inside = true := by
  induction text generalizing i b with
  | nil => exact put_inside kept ⟨low, by simpa using high⟩
  | cons c text ih =>
    rw [length_cons] at high
    exact ih (put_inside kept ⟨low, by omega⟩) (by omega) (by omega)

theorem holds_strcpy : Holds (strcpy text 0 b).byte text := by
  intro i c there
  have copied := @strcpy_byte b 0 text c i there
  rwa [Int.zero_add] at copied

theorem text_of_holds (holds : Holds b.byte text) (plain : ∀ c ∈ text, c ≠ 0) :
    (b.put text.length 0).text text.length = text := by
  have same : ((range text.length).map fun i : ℕ => (b.put text.length 0).byte i) = text := by
    refine ext_getElem (by simp) fun i low high => ?_
    rw [getElem_map, getElem_range]
    refine (update_of_ne ?_ ..).trans (holds i _ (List.getElem?_eq_getElem high))
    omega
  rw [Buffer.text, Int.toNat_natCast, same]
  refine takeWhile_eq_self_iff.mpr fun c there => ?_
  exact decide_eq_true (plain c there)

end Buffer

section Editor
variable {e : Editor} {key : Key} {age : ℕ} {command : List UInt8}

theorem Printable.plain {c : UInt8} (printable : Printable c) : c ≠ 0 := by
  rintro rfl
  exact absurd printable.1 (by decide)

theorem mem_lines_of_command (found : e.command age = some command) : command ∈ e.lines :=
  (drop_suffix _ _).subset (mem_reverse.mp (mem_of_getElem? found))

theorem lt_length_of_command (found : e.command age = some command) : age < e.history.length := by
  rw [← length_reverse]
  exact (List.getElem?_eq_some_iff.mp found).1

theorem exists_command (inside : age < e.history.length) : ∃ command, e.command age = some command := by
  rw [← length_reverse] at inside
  exact ⟨_, List.getElem?_eq_getElem inside⟩

@[simp] theorem show_text {place : ℕ} : (e.show place command).text = command := by
  simp [Editor.show, Editor.text]

theorem Editor.Proper.show {place : ℕ} (proper : e.Proper) (found : e.command age = some command)
    (inside : place ≤ e.history.length) : (e.show place command).Proper where
  text := by
    rw [show_text]
    exact proper.stored command (mem_lines_of_command found)
  stored := proper.stored
  place := inside

theorem Editor.Proper.entered (proper : e.Proper) : e.entered.Proper where
  text := ⟨fun c there => absurd there not_mem_nil, Nat.zero_lt_succ 4095⟩
  stored := by
    intro line there
    rcases mem_append.mp there with earlier | last
    · exact proper.stored line earlier
    · exact mem_singleton.mp last ▸ proper.text
  place := Nat.zero_le _

theorem up_show (found : e.command e.place = some command) : e.up = e.show (e.place + 1) command := by
  rw [Editor.up, found]

theorem up_oldest (oldest : e.place = e.history.length) : e.up = e := by
  have none : e.command e.place = none := List.getElem?_eq_none (by rw [length_reverse]; omega)
  rw [Editor.up, none]

theorem down_show (place : e.place = age + 2) (found : e.command age = some command) :
    e.down = e.show (age + 1) command := by
  rw [Editor.down, place]
  dsimp only
  rw [found]

theorem edit_history : (e.edit key).history = e.history := by
  have lines : (e.edit key).lines = e.lines := by
    cases key <;> unfold Editor.edit <;> dsimp only
    · unfold Editor.up; split <;> rfl
    · unfold Editor.down; split <;> [rfl; rfl; split] <;> rfl
    · unfold Editor.left; split <;> rfl
    · unfold Editor.right; split <;> rfl
  rw [Editor.history, lines]
  rfl

theorem down_own (own : e.place = 0) : e.down = { e with front := [], back := [], place := 0 } := by
  rw [Editor.down, own]

end Editor

theorem rtake_concat {α : Type} (items : List α) (item : α) (count : ℕ) :
    (items ++ [item]).rtake (count + 1) =
      (if count + 1 ≤ (items.rtake (count + 1)).length then (items.rtake (count + 1)).tail
        else items.rtake (count + 1)) ++ [item] := by
  rw [rtake_concat_succ]
  congr 1
  unfold rtake
  rw [length_drop, tail_drop]
  split
  · exact congrArg (items.drop ·) (by omega)
  · exact congrArg (items.drop ·) (by omega)

/-- The state when the loop tests the end of the line -/
def Shell.next (s : Shell) : Shell := { s with eol := s.eol + 1, waiting := .readline }

section Shell
variable {around : Around} {s : Shell} {e : Editor} {key : Key} {command : List UInt8} {age : ℕ}

theorem turn_eq : s.turn around =
    if 0 ≤ s.next.eol ∧ s.next.eol < (commandLineMaxSize : ℤ) - 1 then s.next else s.next.finish around := rfl

theorem Alike.turn (alike : Alike s.next e) :
    s.turn around = if e.text.length + 1 = commandLineMaxSize then s.next.finish around else s.next := by
  have fits := alike.stores.proper.text.2
  rw [turn_eq, alike.eol]
  by_cases full : e.text.length + 1 = commandLineMaxSize
  · rw [if_pos full, if_neg (by omega)]
  · rw [if_neg full, if_pos (by omega)]

theorem Alike.wait (alike : Alike s e) (waiting : Waiting) : Alike { s with waiting := waiting } e :=
  { alike with stores := { alike.stores with } }

theorem Alike.next (alike : Alike s e) : Alike (Shell.next { s with eol := s.eol - 1 }) e := by
  have same : Shell.next { s with eol := s.eol - 1 } = { s with waiting := .readline } := by
    simp only [Shell.next, Int.sub_add_cancel]
  rw [same]
  exact alike.wait .readline

theorem alike_load {place : ℕ} (stores : Stores s e) (found : e.command age = some command) (inside : place ≤ e.history.length)
    (iter : At s.historyIter (e.show place command)) : Alike (s.load around (.command command)) (e.show place command) where
  stores :=
    { inside := by
        change (strcpy command 0 s.buffer).inside = true
        have room := (stores.proper.stored command (mem_lines_of_command found)).2
        exact strcpy_inside stores.inside (Int.le_refl 0) (by omega)
      history := stores.history
      count := stores.count
      lines := stores.lines
      yields := by
        change s.yields ++ [.command command] = (e.shown ++ [command]).map .command
        rw [stores.yields, map_append]
        rfl
      proper := stores.proper.show found inside }
  eol := by rw [show_text]; rfl
  cursor := congrArg _ (length_reverse).symm
  holds := by
    rw [show_text]
    exact holds_strcpy
  iter := iter

theorem at_zero {iter : Option ℕ} (none : e.place = 0) : At iter e ↔ iter.getD 0 = 0 := by
  rw [At, if_pos none]

theorem at_some {iter : ℕ} (some : e.place ≠ 0) : At (.some iter) e ↔ iter = e.history.length + 1 - e.place := by
  rw [At, if_neg some, Option.getD_some]

theorem Shell.before_eq (s : Shell) {place : ℕ} (inside : place ≤ s.history.length) :
    s.before place = if place = 0 then s.history.length else place - 1 := by
  unfold Shell.before
  by_cases head : place = 0
  · rw [if_pos head, head, Nat.zero_add, Nat.mod_eq_of_lt (Nat.lt_succ_self _)]
  · have more : place + s.history.length = place - 1 + (s.history.length + 1) := by omega
    rw [if_neg head, more, Nat.add_mod_right, Nat.mod_eq_of_lt (by omega)]

theorem Shell.after_eq (s : Shell) {place : ℕ} (inside : place < s.history.length) : s.after place = place + 1 :=
  Nat.mod_eq_of_lt (Nat.succ_lt_succ inside)

theorem entry_eq (stores : Stores s e) (found : e.command age = some command) :
    s.entry (e.history.length - age) = .command command := by
  have inside := lt_length_of_command found
  have same : e.history.getD (e.history.length - 1 - age) [] = command := by
    rw [Editor.command, List.getElem?_reverse inside] at found
    rw [List.getD_eq_getElem?_getD, found]
    rfl
  have place : e.history.length - age = e.history.length - 1 - age + 1 := by omega
  rw [place, Shell.entry, stores.history, same]

theorem up_alike (alike : Alike s e) : Alike (shellProcessSpecialKey around s 65) e.up := by
  have stores := alike.stores
  have length : s.history.length = e.history.length := congrArg _ stores.history
  have inside := stores.proper.place
  -- The place before the one of the editor in the ring
  have before : s.before (s.historyIter.getD 0) = e.history.length - e.place := by
    rw [alike.iter, Shell.before_eq s (by rw [length]; split <;> omega), length]
    split <;> split <;> omega
  unfold shellProcessSpecialKey
  rw [if_pos rfl, shellHistoryNext, before]
  by_cases oldest : e.place = e.history.length
  · rw [if_pos (by omega), up_oldest oldest]
    refine ⟨{ stores with },
      alike.eol, alike.cursor, alike.holds, ?_⟩
    by_cases empty : e.history.length = 0
    · rw [at_zero (oldest.trans empty), Shell.after, length, empty]
      exact Nat.mod_one _
    · rw [at_some (by omega), Shell.after_eq s (by omega)]
      omega
  · obtain ⟨command, found⟩ := exists_command (Nat.lt_of_le_of_ne inside oldest)
    rw [if_neg (by omega), up_show found, entry_eq stores found]
    refine alike_load { stores with }
      found (by omega) ?_
    exact (at_some (Nat.succ_ne_zero _)).mpr (Nat.add_sub_add_right _ 1 _).symm

theorem shellHistoryPrev_own (own : s.historyIter.getD 0 = 0) : shellHistoryPrev s = (none, s) := by
  unfold shellHistoryPrev
  split
  · rfl
  · rfl
  · rename_i some same
    rw [same] at own
    exact absurd own some

theorem shellHistoryPrev_some {place : ℕ} (iter : s.historyIter.getD 0 = place + 1) :
    shellHistoryPrev s = (some (s.entry (s.after (place + 1))), { s with historyIter := some (s.after (place + 1)) }) := by
  have some : s.historyIter = some (place + 1) := by
    cases same : s.historyIter with
    | none => rw [same] at iter; cases iter
    | some other => rw [same] at iter; exact congrArg some iter
  unfold shellHistoryPrev
  rw [some]
  rfl

theorem down_alike (alike : Alike s e) (newer : e.place ≠ 1) (own : e.place = 0 → e.front = []) :
    Alike (shellProcessSpecialKey around s 66) e.down := by
  have stores := alike.stores
  have length : s.history.length = e.history.length := congrArg _ stores.history
  have inside := stores.proper.place
  have iter := alike.iter
  unfold shellProcessSpecialKey
  rw [if_neg (by decide), if_pos rfl]
  rcases place : e.place with _ | _ | age
  · have none : shellHistoryPrev { s with eol := 0 } = (none, { s with eol := 0 }) :=
      shellHistoryPrev_own ((at_zero place).mp iter)
    rw [none, down_own place]
    refine ⟨{ stores with proper := ?_ }, rfl, ?_, ?_, ?_⟩
    · exact ⟨⟨fun c there => absurd there not_mem_nil, Nat.zero_lt_succ 4095⟩, stores.proper.stored, Nat.zero_le _⟩
    · exact alike.cursor.trans (congrArg _ (congrArg _ (own place)))
    · exact fun i c there => nomatch there
    · exact (at_zero rfl).mpr ((at_zero place).mp iter)
  · exact absurd place newer
  · obtain ⟨command, found⟩ := @exists_command e age (by omega)
    have here : s.historyIter.getD 0 = e.history.length - (age + 2) + 1 := by
      rw [iter, if_neg (by omega)]
      omega
    have after : s.after (e.history.length - (age + 2) + 1) = e.history.length - age := by
      rw [Shell.after_eq s (by omega)]
      omega
    have some := @shellHistoryPrev_some { s with eol := 0 } _ here
    rw [some, down_show place found]
    change Alike (Shell.load around { s with eol := 0, historyIter := .some (s.after _) } (s.entry (s.after _))) _
    rw [after, entry_eq stores found]
    refine alike_load { stores with }
      found (by omega) ?_
    exact (at_some (Nat.succ_ne_zero _)).mpr (Nat.add_sub_add_right _ 1 _).symm

theorem down_head (alike : Alike s e) (newest : e.place = 1) :
    (shellProcessSpecialKey around s 66).yields = s.yields ++ [.head] := by
  have length : s.history.length = e.history.length := congrArg _ alike.stores.history
  have inside := alike.stores.proper.place
  have here : s.historyIter.getD 0 = e.history.length - 1 + 1 := by
    rw [alike.iter, if_neg (by omega), newest]
    omega
  have head : s.after (e.history.length - 1 + 1) = 0 := by
    have whole : e.history.length - 1 + 1 + 1 = s.history.length + 1 := by omega
    rw [Shell.after, whole, Nat.mod_self]
  unfold shellProcessSpecialKey
  have some := @shellHistoryPrev_some { s with eol := 0 } _ here
  rw [if_neg (by decide), if_pos rfl, some]
  change (Shell.load around { s with eol := 0, historyIter := .some (s.after _) } (s.entry (s.after _))).yields = _
  rw [head]
  rfl

theorem down_cursor (alike : Alike s e) (own : e.place = 0) :
    shellProcessSpecialKey around s 66 = { s with eol := 0 } := by
  have none : shellHistoryPrev { s with eol := 0 } = (none, { s with eol := 0 }) :=
    shellHistoryPrev_own ((at_zero own).mp alike.iter)
  unfold shellProcessSpecialKey
  rw [if_neg (by decide), if_pos rfl, none]

variable {front back : List UInt8}

theorem alike_moved (alike : Alike s e) (text : front.reverse ++ back = e.text) :
    Alike { s with cursorPos := front.length } { e with front := front, back := back } where
  stores :=
    { alike.stores with
      proper := ⟨by rw [Editor.text, text]; exact alike.stores.proper.text, alike.stores.proper.stored, alike.stores.proper.place⟩ }
  eol := by rw [Editor.text, text]; exact alike.eol
  cursor := rfl
  holds := by rw [Editor.text, text]; exact alike.holds
  iter := alike.iter

theorem right_alike (alike : Alike s e) : Alike (shellProcessSpecialKey around s 67) e.right := by
  have length : s.eol = e.front.length + e.back.length := by
    rw [alike.eol, Editor.text, length_append, length_reverse]
    rfl
  have cursor := alike.cursor
  unfold shellProcessSpecialKey Editor.right
  rw [if_neg (by decide), if_neg (by decide), if_pos rfl]
  cases back : e.back with
  | nil =>
    rw [back, length_nil] at length
    rw [if_pos (by omega)]
    exact alike
  | cons c rest =>
    rw [back, length_cons] at length
    have moved := @alike_moved _ _ (c :: e.front) rest alike (by simp [Editor.text, back])
    rw [length_cons, Int.natCast_succ, ← cursor] at moved
    rw [if_neg (by omega)]
    exact moved

theorem left_alike (alike : Alike s e) : Alike (shellProcessSpecialKey around s 68) e.left := by
  have cursor := alike.cursor
  unfold shellProcessSpecialKey Editor.left
  rw [if_neg (by decide), if_neg (by decide), if_neg (by decide), if_pos rfl]
  cases front : e.front with
  | nil =>
    rw [front, length_nil, Int.natCast_zero] at cursor
    rw [if_pos cursor]
    exact alike
  | cons c rest =>
    have moved := @alike_moved _ _ rest (c :: e.back) alike (by simp [Editor.text, front])
    rw [front, length_cons, Int.natCast_succ] at cursor
    have less : (rest.length : ℤ) = s.cursorPos - 1 := by omega
    rw [less] at moved
    rw [if_neg (by omega)]
    exact moved

theorem holds_insert {byte : ℤ → UInt8} {c : UInt8} {changed : ℤ → UInt8} (holds : Holds byte (front ++ back))
    (low : ∀ i : ℕ, i < front.length → changed i = byte i) (here : changed front.length = c)
    (high : ∀ i : ℕ, front.length ≤ i → i < (front ++ back).length → changed (i + 1 : ℕ) = byte i) :
    Holds changed (front ++ c :: back) := by
  intro i other there
  rcases Nat.lt_trichotomy i front.length with before | rfl | behind
  · rw [low i before]
    rw [List.getElem?_append_left before] at there
    exact holds i other (by rw [List.getElem?_append_left before, there])
  · rw [List.getElem?_append_right (Nat.le_refl _), Nat.sub_self] at there
    exact here.trans (Option.some.inj there)
  · obtain ⟨i, rfl⟩ := Nat.exists_eq_succ_of_ne_zero (Nat.ne_zero_of_lt behind)
    have least : front.length ≤ i := Nat.le_of_lt_succ behind
    have inside := (List.getElem?_eq_some_iff.mp there).1
    rw [length_append, length_cons] at inside
    rw [high i least (by rw [length_append]; omega)]
    rw [List.getElem?_append_right (Nat.le_of_lt behind), Nat.succ_sub least, List.getElem?_cons_succ] at there
    exact holds i other (by rw [List.getElem?_append_right least, there])

theorem holds_delete {byte : ℤ → UInt8} {c : UInt8} {changed : ℤ → UInt8}
    (holds : Holds byte (front ++ c :: back)) (low : ∀ i : ℕ, i < front.length → changed i = byte i)
    (high : ∀ i : ℕ, front.length ≤ i → i < (front ++ back).length → changed i = byte (i + 1 : ℕ)) :
    Holds changed (front ++ back) := by
  intro i other there
  rcases Nat.lt_or_ge i front.length with before | behind
  · rw [low i before]
    rw [List.getElem?_append_left before] at there
    exact holds i other (by rw [List.getElem?_append_left before, there])
  · rw [high i behind (List.getElem?_eq_some_iff.mp there).1]
    rw [List.getElem?_append_right behind] at there
    refine holds (i + 1) other ?_
    rw [List.getElem?_append_right (by omega), Nat.succ_sub behind, List.getElem?_cons_succ, there]

theorem insert_alike (waits : Waits s e) {c : UInt8} (printable : Printable c) :
    Alike (s.insert c).next (e.edit (.char c printable)) := by
  have alike := waits.alike
  have stores := alike.stores
  have proper := stores.proper
  have room := waits.room
  have cursor := alike.cursor
  have length : e.text.length = e.front.length + e.back.length := by
    rw [Editor.text, length_append, length_reverse]
  have eol := alike.eol
  have text : (e.edit (.char c printable)).text = e.front.reverse ++ c :: e.back := by simp [Editor.edit, Editor.text]
  have longer : (e.edit (.char c printable)).text.length = e.text.length + 1 := by
    rw [text, length_append, length_cons, length_reverse]
    omega
  have turns : ((s.eol - s.cursorPos + 1).toNat : ℤ) = s.eol - s.cursorPos + 1 := Int.toNat_of_nonneg (by omega)
  refine ⟨⟨?_, stores.history, stores.count, stores.lines, stores.yields, ⟨?_, ?_⟩, proper.stored, proper.place⟩, ?_, ?_, ?_, alike.iter⟩
  · refine echo_inside (put_inside (openGap_inside stores.inside ?_ ?_) ⟨?_, ?_⟩) ?_ ?_ <;> omega
  · intro other there
    rw [text] at there
    rcases mem_append.mp there with before | behind
    · exact proper.text.1 other (mem_append_left _ before)
    · rcases mem_cons.mp behind with rfl | behind
      · exact printable.plain
      · exact proper.text.1 other (mem_append_right _ behind)
  · omega
  · change s.eol + 1 = _
    omega
  · change s.cursorPos + 1 = _
    rw [cursor]
    rfl
  · rw [text]
    change Holds (echo _ _ _).byte _
    rw [echo_byte]
    refine holds_insert alike.holds (fun i before => ?_) ?_ fun i behind inside => ?_
    · rw [length_reverse] at before
      refine (update_of_ne (by omega) ..).trans ?_
      rw [openGap_byte, if_neg (by omega)]
    · rw [length_reverse, ← cursor]
      exact update_self ..
    · rw [length_reverse] at behind
      change i < e.text.length at inside
      refine (update_of_ne (by omega) ..).trans ?_
      rw [openGap_byte, if_pos (by omega)]
      exact congrArg _ (by omega)

theorem delete_alike (waits : Waits s e) : Alike s.delete.next (e.edit .delete) := by
  have alike := waits.alike
  have stores := alike.stores
  have proper := stores.proper
  have room := waits.room
  have cursor := alike.cursor
  have eol := alike.eol
  have length : e.text.length = e.front.length + e.back.length := by
    rw [Editor.text, length_append, length_reverse]
  unfold Shell.delete
  cases front : e.front with
  | nil =>
    rw [front, length_nil, Int.natCast_zero] at cursor
    have same : e.edit .delete = e := by
      simp only [Editor.edit, front, tail_nil]
      rw [← front]
    rw [if_pos (.inr cursor), same]
    exact alike.next
  | cons c rest =>
    rw [front, length_cons] at cursor length
    have text : (e.edit .delete).text = rest.reverse ++ e.back := by simp [Editor.edit, Editor.text, front]
    have before : e.text = rest.reverse ++ c :: e.back := by simp [Editor.text, front]
    have shorter : (e.edit .delete).text.length + 1 = e.text.length := by
      rw [text, length_append, length_reverse]
      omega
    have turns : ((s.eol - (s.cursorPos - 1)).toNat : ℤ) = s.eol - (s.cursorPos - 1) := Int.toNat_of_nonneg (by omega)
    have printed : ((s.eol - 1).toNat : ℤ) = s.eol - 1 := Int.toNat_of_nonneg (by omega)
    rw [if_neg (by omega)]
    refine ⟨⟨?_, stores.history, stores.count, stores.lines, stores.yields, ⟨?_, ?_⟩, proper.stored, proper.place⟩,
      ?_, ?_, ?_, alike.iter⟩
    · refine echo_inside (closeGap_inside stores.inside ?_ ?_) ?_ ?_ <;> omega
    · intro other there
      rw [text] at there
      refine proper.text.1 other ?_
      rw [before]
      exact (mem_append.mp there).elim (mem_append_left _) fun behind =>
        mem_append_right _ (mem_cons_of_mem _ behind)
    · omega
    · change s.eol - 2 + 1 = _
      omega
    · have kept : (e.edit .delete).front = rest := by simp only [Editor.edit, front, tail_cons]
      rw [kept]
      change s.cursorPos - 1 = _
      omega
    · rw [text]
      change Holds (echo _ _ _).byte _
      have holds := alike.holds
      rw [before] at holds
      rw [echo_byte]
      refine holds_delete holds (fun i low => ?_) fun i high inside => ?_
      · rw [length_reverse] at low
        rw [closeGap_byte, if_neg (by omega)]
      · rw [length_reverse] at high
        rw [length_append, length_reverse] at inside
        rw [closeGap_byte, if_pos (by omega)]
        rfl

/-- A key that does not end the line is a case of the loop and the next turn. -/
def Shell.effect (around : Around) (s : Shell) : Key → Shell
  | .char c _ => s.insert c
  | .delete => s.delete
  | .up => special 65
  | .down => special 66
  | .right => special 67
  | .left => special 68
  | .tab | .enter _ _ => { s with eol := s.eol - 1 }
where
  special (c : UInt8) : Shell :=
    let s := shellProcessSpecialKey around { s with waiting := .bracket } c
    { s with eol := s.eol - 1 }

theorem press_enter (waiting : s.waiting = .readline) (enters : key.enters = true) :
    s.press around key = s.finish around := by
  cases key with
  | enter c newline =>
    change Shell.getc around s c = _
    rw [Shell.getc, waiting]
    exact if_pos newline
  | _ => cases enters

theorem press_turn (waiting : s.waiting = .readline) (goes : key.enters = false) :
    s.press around key = (s.effect around key).turn around := by
  have arrow (c : UInt8) : [0x1b, 91, c].foldl (Shell.getc around) s = (Shell.effect.special around s c).turn around := by
    simp [Shell.getc, waiting, Shell.effect.special]
  cases key with
  | char c printable =>
    have differs : ¬(c = 10 ∨ c = 13) ∧ c ≠ 0x7f ∧ c ≠ 0x1b ∧ c ≠ 9 := by
      refine ⟨?_, printable.2, ?_, ?_⟩
      · rintro (rfl | rfl) <;> exact absurd printable.1 (by decide)
      · rintro rfl; exact absurd printable.1 (by decide)
      · rintro rfl; exact absurd printable.1 (by decide)
    change Shell.getc around s c = _
    rw [Shell.getc, waiting]
    dsimp only
    rw [if_neg differs.1, if_neg differs.2.1, if_neg differs.2.2.1, if_neg differs.2.2.2]
    rfl
  | delete | tab =>
    change Shell.getc around s _ = _
    rw [Shell.getc, waiting]
    rfl
  | up | down | left | right => exact arrow _
  | enter c newline => cases goes

theorem effect_alike (waits : Waits s e) (goes : key.enters = false)
    (down : key = .down → e.place ≠ 1 ∧ (e.place = 0 → e.front = [])) :
    Alike (s.effect around key).next (e.edit key) := by
  have bracket := waits.alike.wait .bracket
  cases key with
  | char c printable => exact insert_alike waits printable
  | delete => exact delete_alike waits
  | tab => exact waits.alike.next
  | up => exact (up_alike bracket).next
  | down => exact (down_alike bracket (down rfl).1 (down rfl).2).next
  | left => exact (left_alike bracket).next
  | right => exact (right_alike bracket).next
  | enter c newline => cases goes

@[simp] theorem shellHistoryAdd_lines (s : Shell) (command : List UInt8) :
    (shellHistoryAdd s command).lines = s.lines := by
  unfold shellHistoryAdd
  split <;> rfl

@[simp] theorem shellHistoryAdd_yields (s : Shell) (command : List UInt8) :
    (shellHistoryAdd s command).yields = s.yields := by
  unfold shellHistoryAdd
  split <;> rfl

@[simp] theorem shellHistoryAdd_buffer (s : Shell) (command : List UInt8) :
    (shellHistoryAdd s command).buffer = s.buffer := by
  unfold shellHistoryAdd
  split <;> rfl

theorem finish_yields : (s.finish around).yields = s.yields :=
  shellHistoryAdd_yields _ ((s.buffer.put s.eol 0).text s.eol)

theorem finish_step (alike : Alike s e) :
    (Faithful (s.finish around) e.entered → e.history.length < historySize ∨ e.history.dropLast = e.history.tail) ∧
      (e.history.length < historySize ∨ e.history.dropLast = e.history.tail → Waits (s.finish around) e.entered) := by
  have stores := alike.stores
  have proper := stores.proper
  have line : (s.buffer.put s.eol 0).text s.eol = e.text := by
    rw [alike.eol]
    exact text_of_holds alike.holds proper.text.1
  have lines : (s.finish around).lines = e.lines ++ [e.text] := by
    rw [← line, ← stores.lines]
    exact shellHistoryAdd_lines _ ((s.buffer.put s.eol 0).text s.eol)
  have history : (s.finish around).history =
      (if historySize ≤ e.history.length then e.history.dropLast else e.history) ++ [e.text] := by
    rw [← line, ← stores.count, ← stores.history]
    unfold Shell.finish shellHistoryAdd
    split <;> rfl
  have count : (s.finish around).historyCmdCount =
      (if historySize ≤ e.history.length then e.history.length - 1 else e.history.length) + 1 := by
    rw [← stores.count]
    unfold Shell.finish shellHistoryAdd
    split <;> rfl
  have inside : (s.finish around).buffer.inside = true := by
    have fits := proper.text.2
    have eol := alike.eol
    have put : (s.buffer.put s.eol 0).inside = true := put_inside stores.inside ⟨by omega, by omega⟩
    exact (congrArg Buffer.inside (shellHistoryAdd_buffer _ ((s.buffer.put s.eol 0).text s.eol))).trans put
  have entered : e.entered.history =
      (if historySize ≤ e.history.length then e.history.tail else e.history) ++ [e.text] := rtake_concat e.lines e.text 9
  constructor
  · intro faithful
    have kept := faithful.history
    rw [faithful.lines] at kept
    have same : (s.finish around).history = e.entered.history := kept
    rw [history, entered] at same
    by_cases full : historySize ≤ e.history.length
    · rw [if_pos full, if_pos full] at same
      exact .inr (append_cancel_right same)
    · exact .inl (Nat.lt_of_not_le full)
  · intro mayEnd
    have same : (s.finish around).history = e.entered.history := by
      rw [history, entered]
      by_cases full : historySize ≤ e.history.length
      · rw [if_pos full, if_pos full, mayEnd.resolve_left (Nat.not_lt_of_le full)]
      · rw [if_neg full, if_neg full]
    refine ⟨⟨⟨inside, same, ?_, lines, finish_yields.trans stores.yields, proper.entered⟩, rfl, rfl, ?_, rfl⟩, rfl,
      Nat.succ_lt_succ (Nat.zero_lt_succ 4094)⟩
    rotate_left
    · exact fun i c there => nomatch there
    rw [count, entered, length_append, length_singleton]
    split
    · rw [length_tail]
    · rfl

/-- A shell that waits for a key shows the line of the editor. -/
theorem Waits.faithful (waits : Waits s e) : Faithful s e where
  lines := waits.alike.stores.lines
  inside := waits.alike.stores.inside
  cursor := by
    have eol := waits.alike.eol
    have cursor := waits.alike.cursor
    rw [Editor.text, length_append, length_reverse] at eol
    omega
  history := by
    rw [waits.alike.stores.lines]
    exact waits.alike.stores.history
  yields := waits.alike.stores.yields

theorem turn_yields : (s.turn around).yields = s.yields := by
  rw [turn_eq]
  split
  · rfl
  · exact finish_yields

theorem down_harmless (waits : Waits s e) (faithful : Faithful (s.press around .down) (e.press .down)) :
    e.place ≠ 1 ∧ (e.place = 0 → e.front = []) := by
  have bracket := waits.alike.wait .bracket
  rw [press_turn waits.waiting rfl] at faithful
  constructor
  · intro newest
    have given : ((s.effect around .down).turn around).yields = s.yields ++ [.head] :=
      turn_yields.trans (down_head bracket newest)
    have head : Yield.head ∈ (e.press .down).shown.map Yield.command := by
      rw [← faithful.yields, given]
      exact mem_append_right _ (mem_singleton_self _)
    obtain ⟨text, -, same⟩ := mem_map.mp head
    cases same
  · intro own
    have cleared : (s.effect around .down).turn around = { s with eol := 0, waiting := .readline } := by
      change Shell.turn around { shellProcessSpecialKey around { s with waiting := .bracket } 66 with eol := _ - 1 } = _
      rw [down_cursor bracket own, turn_eq]
      rfl
    have cursor := faithful.cursor.2
    rw [cleared] at cursor
    change s.cursorPos ≤ 0 at cursor
    rw [waits.alike.cursor] at cursor
    exact length_eq_zero_iff.mp (by omega)

/-- A harmless key does to the shell what it does to the editor, and any other key does not. -/
theorem Waits.press (waits : Waits s e) :
    (Faithful (s.press around key) (e.press key) → Harmless e key) ∧
      (Harmless e key → Waits (s.press around key) (e.press key)) := by
  by_cases enters : key.enters = true
  · have ends : e.Ends key := .inl enters
    have edit : e.edit key = e := by
      cases key with
      | enter c newline => rfl
      | _ => cases enters
    have notDown : key ≠ .down := by
      rintro rfl
      cases enters
    have pressed : e.press key = e.entered := by rw [Editor.press, if_pos ends, edit]
    obtain ⟨needed, kept⟩ := @finish_step around s e waits.alike
    rw [press_enter waits.waiting enters, pressed]
    exact ⟨fun faithful => ⟨fun down => absurd down notDown, fun _ => needed faithful⟩, fun harmless => kept (harmless.ends ends)⟩
  · have goes : key.enters = false := Bool.eq_false_iff.mpr enters
    suffices step : (key = .down → e.place ≠ 1 ∧ (e.place = 0 → e.front = [])) →
        (Faithful (s.press around key) (e.press key) → Harmless e key) ∧
          (Harmless e key → Waits (s.press around key) (e.press key)) by
      refine ⟨fun faithful => (step ?_).1 faithful, fun harmless => (step harmless.down).2 harmless⟩
      rintro rfl
      exact down_harmless waits faithful
    intro down
    have alike := @effect_alike around s e key waits goes down
    rw [press_turn waits.waiting goes, alike.turn, Editor.press]
    have same : (e.edit key).history = e.history := edit_history
    by_cases full : (e.edit key).text.length + 1 = commandLineMaxSize
    · obtain ⟨needed, kept⟩ := @finish_step around _ _ alike
      rw [same] at needed kept
      rw [if_pos full, if_pos (.inr full)]
      exact ⟨fun faithful => ⟨down, fun _ => needed faithful⟩, fun harmless => kept (harmless.ends (.inr full))⟩
    · have stays : ¬e.Ends key := fun ends => ends.elim enters full
      rw [if_neg full, if_neg stays]
      refine ⟨fun _ => ⟨down, fun ends => absurd ends stays⟩, fun _ => ⟨alike, rfl, ?_⟩⟩
      exact Nat.lt_of_le_of_ne alike.stores.proper.text.2 full

end Shell

/-- The shell stays faithful to the reference editor for as long as every key is harmless. -/
theorem shell_readline_iff (around : Around) (byte : ℤ → UInt8) (keys : List Key) :
    (∀ before, before <+: keys →
        Faithful (before.foldl (Shell.press around) (Shell.start byte)) (before.foldl Editor.press Editor.start)) ↔
      ∀ before key, before ++ [key] <+: keys → Harmless (before.foldl Editor.press Editor.start) key := by
  have start : Waits (Shell.start byte) Editor.start := by
    refine ⟨⟨⟨rfl, rfl, rfl, rfl, rfl, ⟨⟨?_, ?_⟩, ?_, Nat.zero_le _⟩⟩, rfl, rfl, ?_, rfl⟩, rfl, Nat.succ_lt_succ (Nat.zero_lt_succ 4094)⟩
    · exact fun c there => nomatch there
    · exact Nat.zero_lt_succ 4095
    · exact fun line there => nomatch there
    · exact fun i c there => nomatch there
  exact faithful_iff_guarded (Shell.press around) Editor.press Harmless Waits Faithful (fun _ _ waits => waits.faithful)
    (fun _ _ _ waits => waits.press) (Shell.start byte) Editor.start keys start

/-- After one command, up and then down give the list head as a command. -/
theorem shell_yields_head :
    ¬∀ (around : Around) (byte : ℤ → UInt8) (keys : List Key),
      Faithful (keys.foldl (Shell.press around) (Shell.start byte)) (keys.foldl Editor.press Editor.start) := by
  intro always
  have faithful := always ⟨fun _ => [], id⟩ (fun _ => 0) [.char 97 (by decide), .enter 10 (.inl rfl), .up, .down]
  exact absurd faithful.yields (by decide +kernel)

end Phabos.Apps
