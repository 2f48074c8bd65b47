import Phabos.Proof.Ramfs.ReadAfterWrite

namespace Phabos.Ramfs
open Library Function Option List

section Turns
variable {s next : State} {buf : ℕ → UInt8} {file fuel count wcount : ℕ} {zalloc : ℕ → Bool} {blockId offset result : Int}
  {copies : List Copy}

/-- The copies of a loop that nothing stops -/
def turns : ℕ → Int → Int → ℕ → List Copy
  | 0, _, _, _ => []
  | fuel + 1, blockId, offset, count =>
    if count = 0 then []
    else ⟨blockId, offset, transferSize offset count⟩ :: turns fuel (blockId + 1) 0 (count - transferSize offset count)

/-- The bytes that the copies move -/
def moved (copies : List Copy) : ℕ := (copies.map Copy.size).sum

theorem moved_cons (copy : Copy) (copies : List Copy) : moved (copy :: copies) = copy.size + moved copies :=
  sum_cons

theorem moved_le_of_front {other : List Copy} (front : copies <+: other) : moved copies ≤ moved other := by
  obtain ⟨rest, rfl⟩ := front
  unfold moved
  rw [map_append, sum_append]
  exact Nat.le_add_right _ _

/-- A copy stays in its block and in a buffer. -/
structure Copy.Within (count : ℕ) (copy : Copy) : Prop where
  block : 0 ≤ copy.blockId
  start : 0 ≤ copy.offset
  finish : copy.offset + copy.size ≤ dataBlockSize
  buffer : copy.size ≤ count

theorem turns_within (positive : 0 ≤ blockId) (inside : 0 ≤ offset) (below : offset ≤ dataBlockSize) {bound : ℕ}
    (less : count ≤ bound) : ∀ copy ∈ turns fuel blockId offset count, copy.Within bound := by
  induction fuel generalizing blockId offset count with
  | zero => exact fun _ there => nomatch there
  | succ fuel ih =>
    unfold turns
    split
    · exact fun _ there => nomatch there
    · intro copy there
      rcases mem_cons.mp there with rfl | there
      · exact ⟨positive, inside, by dsimp only [transferSize]; omega, by dsimp only [transferSize]; omega⟩
      · exact ih (by omega) (Int.le_refl 0) (by decide) (by omega) copy there

theorem moved_turns_le : moved (turns fuel blockId offset count) ≤ count := by
  induction fuel generalizing blockId offset count with
  | zero => exact Nat.zero_le _
  | succ fuel ih =>
    unfold turns
    split
    · exact Nat.zero_le _
    · have rest : moved (turns fuel (blockId + 1) 0 (count - transferSize offset count)) ≤
        count - transferSize offset count := ih
      have fits : transferSize offset count ≤ count := Nat.min_le_right _ _
      rw [moved_cons]
      dsimp only
      omega

theorem moved_turns (below : offset < dataBlockSize) (enough : count ≤ fuel) :
    moved (turns fuel blockId offset count) = count := by
  induction fuel generalizing blockId offset count with
  | zero => exact (Nat.le_zero.mp enough).symm
  | succ fuel ih =>
    unfold turns
    split
    · rename_i zero
      exact zero.symm
    · have some : 0 < transferSize offset count ∧ transferSize offset count ≤ count := by
        unfold transferSize
        omega
      have rest : moved (turns fuel (blockId + 1) 0 (count - transferSize offset count)) =
        count - transferSize offset count := ih (by decide) (by omega)
      rw [moved_cons, rest]
      dsimp only
      omega

/-- A call adds a number to the offset of its file and leaves the others alone. -/
def Advanced (s : State) (file n : ℕ) (next : State) : Prop :=
  next.offset = Function.update s.offset file (offT (s.offset file + n))

theorem Advanced.zero (normal : offT (s.offset file) = s.offset file) : Advanced s file 0 s := by
  unfold Advanced
  rw [Int.natCast_zero, Int.add_zero, normal, update_eq_self]

theorem Advanced.trans {middle : State} {first second : ℕ} (one : Advanced s file first middle)
    (two : Advanced middle file second next) : Advanced s file (first + second) next := by
  unfold Advanced at one two ⊢
  rw [two, one, update_idem, update_self]
  unfold offT
  rw [Int.bmod_add_bmod, Int.natCast_add, Int.add_assoc]

theorem Advanced.normal {n : ℕ} (advanced : Advanced s file n next) : offT (next.offset file) = next.offset file := by
  unfold Advanced at advanced
  rw [advanced, update_self]
  exact Int.bmod_bmod

theorem writeBlock_offset {id : Int} {block : ℕ} (written : s.writeBlock id = some (block, next)) :
    next.offset = s.offset := by
  obtain ⟨found, -, written⟩ := bind_eq_some_iff.mp written
  split at written
  · obtain ⟨blocks, -, equal⟩ := map_eq_some_iff.mp written
    cases equal
    rfl
  · cases written
    rfl

theorem readTurns_copies (normal : offT (s.offset file) = s.offset file)
    (ran : readTurns file fuel s buf blockId offset count wcount = some (result, copies, next)) :
    copies = turns fuel blockId offset count ∧ Advanced s file (moved copies) next := by
  induction fuel generalizing s buf blockId offset count wcount copies with
  | zero =>
    unfold readTurns at ran
    split at ran
    · cases ran
      exact ⟨rfl, .zero normal⟩
    · cases ran
  | succ fuel ih =>
    unfold readTurns at ran
    unfold turns
    split at ran
    · rename_i zero
      cases ran
      exact ⟨(if_pos zero).symm, .zero normal⟩
    · rename_i some
      obtain ⟨block, -, ran⟩ := bind_eq_some_iff.mp ran
      obtain ⟨⟨result, copies, next⟩, ran, equal⟩ := map_eq_some_iff.mp ran
      cases equal
      have first : Advanced s file (transferSize offset count) (s.advance file (transferSize offset count)) := rfl
      obtain ⟨rfl, rest⟩ := ih first.normal ran
      rw [if_neg some]
      exact ⟨rfl, first.trans rest⟩

theorem writeTurns_copies (normal : offT (s.offset file) = s.offset file)
    (ran : writeTurns buf file fuel zalloc s blockId offset count wcount = some (result, copies, next)) :
    copies <+: turns fuel blockId offset count ∧ Advanced s file (moved copies) next ∧
      ((∀ turn, zalloc turn = true) → copies = turns fuel blockId offset count) := by
  induction fuel generalizing s zalloc blockId offset count wcount copies with
  | zero =>
    unfold writeTurns at ran
    split at ran
    · cases ran
      exact ⟨ nil_prefix, .zero normal, fun _ => rfl⟩
    · cases ran
  | succ fuel ih =>
    unfold writeTurns at ran
    unfold turns
    split at ran
    · rename_i zero
      cases ran
      exact ⟨ nil_prefix, .zero normal, fun _ => (if_pos zero).symm⟩
    · rename_i some
      rw [if_neg some]
      obtain ⟨found, -, ran⟩ := bind_eq_some_iff.mp ran
      split at ran
      · rename_i denied
        cases ran
        exact ⟨ nil_prefix, .zero normal, fun granted => Bool.noConfusion ((granted 0).symm.trans denied.2)⟩
      · obtain ⟨⟨block, middle⟩, written, ran⟩ := bind_eq_some_iff.mp ran
        obtain ⟨⟨result, copies, next⟩, ran, equal⟩ := map_eq_some_iff.mp ran
        cases equal
        have first : Advanced s file (transferSize offset count)
            ((middle.copyIn block buf (transferSize offset count)).advance file (transferSize offset count)) := by
          unfold Advanced
          rw [← writeBlock_offset written]
          rfl
        obtain ⟨front, rest, all⟩ := ih first.normal ran
        exact ⟨cons_prefix_cons.mpr ⟨rfl, front⟩, first.trans rest,
          fun granted => congrArg _ (all fun turn => granted (turn + 1))⟩

/-- The blocks of a file are in a table that answers all calls. -/
def Backed (s : State) : Prop := ∃ map, s.blocks.Refines map ∧ s.blocks.NoTombstone

theorem Backed.get (backed : Backed s) (key : BitVec 32) : ∃ block, s.blocks.get key = some block := by
  obtain ⟨map, refined, clean⟩ := backed
  have load := refined.load
  exact ⟨_, refined.get_returns (refined.wellFormed.hasFresh_of_noTombstone clean (by omega)) key⟩

theorem Backed.writeBlock (backed : Backed s) (id : Int) :
    ∃ block next, s.writeBlock id = some (block, next) ∧ Backed next := by
  obtain ⟨found, gets⟩ := backed.get (blockKey id)
  obtain ⟨map, refined, clean⟩ := backed
  unfold State.writeBlock
  rw [gets, bind_some]
  split
  · obtain ⟨blocks, added, later, refines⟩ := refined.add_returns clean (blockKey id) s.nextBlock
    refine ⟨s.nextBlock, { s.zalloc.2 with blocks := blocks }, ?_, _, refines, later⟩
    change Option.map _ (s.blocks.add (blockKey id) s.nextBlock) = _
    rw [added]
    rfl
  · exact ⟨found, s, rfl, map, refined, clean⟩

theorem Backed.readTurns (backed : Backed s) (below : offset < dataBlockSize) (enough : count ≤ fuel) :
    ∃ result copies next, readTurns file fuel s buf blockId offset count wcount = some (result, copies, next) ∧
      Backed next := by
  induction fuel generalizing s buf blockId offset count wcount with
  | zero =>
    obtain rfl := Nat.le_zero.mp enough
    exact ⟨_, _, s, rfl, backed⟩
  | succ fuel ih =>
    unfold Ramfs.readTurns
    split
    · exact ⟨_, _, s, rfl, backed⟩
    · have some : 0 < transferSize offset count := by
        unfold transferSize
        omega
      obtain ⟨block, gets⟩ := backed.get (blockKey blockId)
      have kept : Backed (s.advance file (transferSize offset count)) := backed
      have start : (0 : Int) < dataBlockSize := by decide
      have fewer : count - transferSize offset count ≤ fuel := by omega
      obtain ⟨result, copies, next, ran, later⟩ := ih kept start fewer
      rw [gets, bind_some, ran]
      exact ⟨result, _, next, rfl, later⟩

theorem Backed.writeTurns (backed : Backed s) (below : offset < dataBlockSize) (enough : count ≤ fuel) :
    ∃ result copies next, writeTurns buf file fuel zalloc s blockId offset count wcount = some (result, copies, next) ∧
      Backed next := by
  induction fuel generalizing s zalloc blockId offset count wcount with
  | zero =>
    obtain rfl := Nat.le_zero.mp enough
    exact ⟨_, _, s, rfl, backed⟩
  | succ fuel ih =>
    unfold Ramfs.writeTurns
    split
    · exact ⟨_, _, s, rfl, backed⟩
    · have some : 0 < transferSize offset count := by
        unfold transferSize
        omega
      obtain ⟨found, gets⟩ := backed.get (blockKey blockId)
      rw [gets, bind_some]
      split
      · exact ⟨_, _, s, rfl, backed⟩
      · obtain ⟨block, middle, written, kept⟩ := backed.writeBlock blockId
        have copied : Backed ((middle.copyIn block buf (transferSize offset count)).advance file
          (transferSize offset count)) := kept
        have start : (0 : Int) < dataBlockSize := by decide
        have fewer : count - transferSize offset count ≤ fuel := by omega
        obtain ⟨result, copies, next, ran, later⟩ := @ih _ _ (wcount + transferSize offset count)
          (fun turn => zalloc (turn + 1)) (blockId + 1) 0 copied start fewer
        rw [written, bind_some]
        dsimp only
        rw [ran]
        exact ⟨result, _, next, rfl, later⟩

end Turns

section Offsets
variable {s next : State}

/-- Where a seek goes -/
def Access.target (s : State) : Access → Option Int
  | .sysLseek _ offset .seekSet => some offset.toInt
  | .sysLseek file offset .seekCur => some (s.offset file + offset.toInt)
  | _ => none

/-- The size of the buffer of a call -/
def Access.room : Access → ℕ
  | .sysLseek _ _ _ => 0
  | .sysWrite _ _ count _ => count.toNat
  | .sysRead _ _ count => count.toNat

/-- A call refuses a negative position, copies inside a block and the buffer, and leaves offsets that can be used. -/
structure Usable (s : State) (access : Access) : Prop where
  refused : ∀ target ∈ access.target s, target < 0 → ∃ code < 0, access.call s = some (code, [], s)
  within : ∀ result copies next, access.call s = some (result, copies, next) → ∀ copy ∈ copies, copy.Within access.room
  kept : ∀ next, access.step s = some next → ∀ file, 0 ≤ next.offset file

/-- A seek goes to an offset that an `off_t` can store and that is not negative, and so does a transfer. -/
def InRange (s : State) : Access → Prop
  | .sysLseek _ offset .seekSet => 0 ≤ offset.toInt
  | .sysLseek file offset .seekCur => 0 ≤ s.offset file + offset.toInt ∧ s.offset file + offset.toInt < 2 ^ 31
  | .sysLseek _ _ .other => True
  | .sysWrite file _ count _ => s.offset file + count.toNat < 2 ^ 31
  | .sysRead file _ count => s.offset file + count.toNat < 2 ^ 31

/-- All allocations succeed, and a buffer is at most half of the memory. -/
def Complete : Access → Prop
  | .sysLseek _ _ _ => True
  | .sysWrite _ _ count zalloc => (∀ turn, zalloc turn = true) ∧ count.toNat ≤ 2 ^ 31
  | .sysRead _ _ count => count.toNat ≤ 2 ^ 31

/-- The blocks are in a good table, and no offset is negative. -/
structure Sound (s : State) : Prop where
  backed : Backed s
  positive : ∀ file, 0 ≤ s.offset file
  small : ∀ file, s.offset file < 2 ^ 31

theorem offT_of_small {value : Int} (positive : 0 ≤ value) (small : value < 2 ^ 31) : offT value = value :=
  Int.bmod_eq_of_le (by omega) (by omega)

theorem offT_neg {value : Int} (low : -2 ^ 31 ≤ value) (high : value < 2 ^ 32) (outside : value < 0 ∨ 2 ^ 31 ≤ value) :
    offT value < 0 := by
  rcases outside with negative | large
  · have same : offT value = value := Int.bmod_eq_of_le (by omega) (by omega)
    omega
  · have same : offT (value - (2 ^ 32 : ℕ)) = value - (2 ^ 32 : ℕ) := Int.bmod_eq_of_le (by omega) (by omega)
    unfold offT at same ⊢
    rw [Int.sub_bmod_right] at same
    omega

theorem Sound.normal (sound : Sound s) (file : ℕ) : offT (s.offset file) = s.offset file :=
  offT_of_small (sound.positive file) (sound.small file)

theorem Sound.initial : Sound State.initial where
  backed := ⟨_, Hashtable.refines_create uintKeys, fun _ => rfl⟩
  positive _ := Int.le_refl 0
  small _ := Int.pow_pos (by decide)

theorem Sound.moveTo (sound : Sound s) {file : ℕ} {value : Int} (positive : 0 ≤ value) (small : value < 2 ^ 31)
    (backed : Backed next) (moved : next.offset = update s.offset file value) : Sound next := by
  refine ⟨backed, fun other => ?_, fun other => ?_⟩
  · rw [moved, update_apply]
    split
    · exact positive
    · exact sound.positive other
  · rw [moved, update_apply]
    split
    · exact small
    · exact sound.small other

theorem Sound.start (sound : Sound s) (file : ℕ) :
    0 ≤ (s.offset file).tdiv dataBlockSize ∧ 0 ≤ (s.offset file).tmod dataBlockSize ∧
      (s.offset file).tmod dataBlockSize < dataBlockSize :=
  ⟨Int.tdiv_nonneg (sound.positive file) (by decide), Int.tmod_nonneg _ (sound.positive file),
    Int.tmod_lt_of_pos _ (by decide)⟩

theorem Sound.transfer (sound : Sound s) {file count : ℕ} {copies : List Copy}
    (front : copies <+: turns count ((s.offset file).tdiv dataBlockSize) ((s.offset file).tmod dataBlockSize) count)
    (advanced : Advanced s file (moved copies) next) (backed : Backed next) (room : s.offset file + count < 2 ^ 31) :
    (∀ copy ∈ copies, copy.Within count) ∧ Sound next := by
  obtain ⟨block, inside, below⟩ := sound.start file
  have positive := sound.positive file
  have fewer := (moved_le_of_front front).trans moved_turns_le
  refine ⟨fun copy there => turns_within block inside (Int.le_of_lt below) (Nat.le_refl _) copy (front.subset there), ?_⟩
  unfold Advanced at advanced
  rw [offT_of_small (by omega) (by omega)] at advanced
  exact sound.moveTo (by omega) (by omega) backed advanced

/-- Every access returns and keeps the blocks backed. -/
theorem Backed.call (backed : Backed s) (access : Access) :
    ∃ result copies next, access.call s = some (result, copies, next) ∧ Backed next := by
  have below (file : ℕ) : (s.offset file).tmod dataBlockSize < dataBlockSize := Int.tmod_lt_of_pos _ (by decide)
  cases access with
  | sysLseek file offset whence =>
    cases whence with
    | seekSet | seekCur | other => exact ⟨_, _, _, rfl, backed⟩
  | sysWrite file buf count zalloc =>
    unfold Access.call
    dsimp only
    split
    · exact ⟨_, _, s, rfl, backed⟩
    · exact backed.writeTurns (below file) (Nat.le_refl _)
  | sysRead file buf count =>
    unfold Access.call
    dsimp only
    split
    · exact ⟨_, _, s, rfl, backed⟩
    · exact backed.readTurns (below file) (Nat.le_refl _)

theorem Sound.write_call (sound : Sound s) {file : ℕ} {buf : ℕ → UInt8} {count : BitVec 32} {zalloc : ℕ → Bool}
    {result : Int} {copies : List Copy}
    (called : (Access.sysWrite file buf count zalloc).call s = some (result, copies, next)) :
    copies <+: turns count.toNat ((s.offset file).tdiv dataBlockSize) ((s.offset file).tmod dataBlockSize) count.toNat ∧
      Advanced s file (moved copies) next ∧ ((∀ turn, zalloc turn = true) → moved copies = count.toNat) := by
  unfold Access.call at called
  dsimp only at called
  split at called
  · rename_i zero
    cases called
    exact ⟨ nil_prefix, .zero (sound.normal file), fun _ => by rw [zero]; rfl⟩
  · obtain ⟨front, advanced, all⟩ := writeTurns_copies (sound.normal file) called
    refine ⟨front, advanced, fun granted => ?_⟩
    rw [all granted]
    exact moved_turns (sound.start file).2.2 (Nat.le_refl _)

theorem Sound.read_call (sound : Sound s) {file : ℕ} {buf : ℕ → UInt8} {count : BitVec 32} {result : Int}
    {copies : List Copy} (called : (Access.sysRead file buf count).call s = some (result, copies, next)) :
    copies <+: turns count.toNat ((s.offset file).tdiv dataBlockSize) ((s.offset file).tmod dataBlockSize) count.toNat ∧
      Advanced s file (moved copies) next ∧ moved copies = count.toNat := by
  unfold Access.call at called
  dsimp only at called
  split at called
  · rename_i zero
    cases called
    exact ⟨ nil_prefix, .zero (sound.normal file), by rw [zero]; rfl⟩
  · obtain ⟨rfl, advanced⟩ := readTurns_copies (sound.normal file) called
    exact ⟨prefix_refl _, advanced, moved_turns (sound.start file).2.2 (Nat.le_refl _)⟩

/-- An access in range is usable and keeps the offsets sound. -/
theorem Sound.usable (sound : Sound s) {access : Access} (range : InRange s access) :
    Usable s access ∧ ∀ next, access.step s = some next → Sound next := by
  obtain ⟨result, copies, next, called, backed⟩ := sound.backed.call access
  have stepped : access.step s = some next := by
    unfold Access.step
    rw [called]
    rfl
  -- the target of a seek is not negative
  have unrefused : ∀ target ∈ access.target s, ¬ target < 0 := by
    intro target there
    cases access with
    | sysLseek file offset whence =>
      cases whence with
      | seekSet =>
        obtain rfl := some.inj there
        exact not_lt.mpr range
      | seekCur =>
        obtain rfl := some.inj there
        exact not_lt.mpr range.1
      | other => cases there
    | sysWrite file buf count zalloc => cases there
    | sysRead file buf count => cases there
  obtain ⟨within, kept⟩ : (∀ copy ∈ copies, copy.Within access.room) ∧ Sound next := by
    cases access with
    | sysLseek file offset whence =>
      cases whence with
      | seekSet =>
        cases called
        exact ⟨fun _ there => (nomatch there), sound.moveTo range offset.toInt_lt backed rfl⟩
      | seekCur =>
        cases called
        exact ⟨fun _ there => (nomatch there), sound.moveTo range.1 range.2 backed
          (congrArg (update s.offset file) (offT_of_small range.1 range.2))⟩
      | other =>
        cases called
        exact ⟨fun _ there => (nomatch there), sound⟩
    | sysWrite file buf count zalloc =>
      obtain ⟨front, advanced, -⟩ := sound.write_call called
      exact sound.transfer front advanced backed range
    | sysRead file buf count =>
      obtain ⟨front, advanced, -⟩ := sound.read_call called
      exact sound.transfer front advanced backed range
  refine ⟨⟨fun target there negative => absurd negative (unrefused target there), ?_, ?_⟩, ?_⟩
  · intro _ _ _ same
    cases called.symm.trans same
    exact within
  · intro _ same
    cases stepped.symm.trans same
    exact kept.positive
  · intro _ same
    cases stepped.symm.trans same
    exact kept

theorem Sound.inRange (sound : Sound s) {access : Access} (complete : Complete access) (usable : Usable s access) :
    InRange s access := by
  obtain ⟨result, copies, next, called, -⟩ := sound.backed.call access
  have kept := usable.kept next (by unfold Access.step; rw [called]; rfl)
  -- an offset that left the range would be negative
  have inside (file : ℕ) {value : Int} (low : -2 ^ 31 ≤ value) (high : value < 2 ^ 32)
      (moved : next.offset = update s.offset file (offT value)) : 0 ≤ value ∧ value < 2 ^ 31 := by
    by_contra outside
    have good := kept file
    rw [moved, update_self] at good
    exact absurd (offT_neg low high (by omega)) (not_lt.mpr good)
  cases access with
  | sysLseek file offset whence =>
    cases whence with
    | seekSet =>
      cases called
      have good : 0 ≤ update s.offset file offset.toInt file := kept file
      rwa [update_self] at good
    | seekCur =>
      cases called
      have positive := sound.positive file
      have small := sound.small file
      have low : -2 ^ 31 ≤ offset.toInt := offset.le_toInt
      have high : offset.toInt < 2 ^ 31 := offset.toInt_lt
      exact inside file (by omega) (by omega) rfl
    | other => trivial
  | sysWrite file buf count zalloc =>
    obtain ⟨-, advanced, all⟩ := sound.write_call called
    rw [all complete.1] at advanced
    have positive := sound.positive file
    have small := sound.small file
    have half := complete.2
    exact (inside file (by omega) (by omega) advanced).2
  | sysRead file buf count =>
    obtain ⟨-, advanced, all⟩ := sound.read_call called
    rw [all] at advanced
    have positive := sound.positive file
    have small := sound.small file
    have half : count.toNat ≤ 2 ^ 31 := complete
    exact (inside file (by omega) (by omega) advanced).2

end Offsets

/-- All calls on a new file return. They refuse negative positions, keep their copies in a block and in their buffer, and
leave no negative offset if all seeks and transfers stay in range. Where no allocation fails this holds only then. -/
theorem ramfs_offsets_usable (calls : List Access) :
    (∃ final, run Access.step .initial calls = some final) ∧
      (Guarded Access.step InRange .initial calls → Guarded Access.step Usable .initial calls) ∧
      ((∀ access ∈ calls, Complete access) →
        (Guarded Access.step Usable .initial calls ↔ Guarded Access.step InRange .initial calls)) := by
  have usable : Guarded Access.step InRange .initial calls → Guarded Access.step Usable .initial calls :=
    Guarded.imp Sound (fun s access sound range => sound.usable range) .initial
  refine ⟨?_, usable, fun complete => ⟨fun guarded => ?_, usable⟩⟩
  · obtain ⟨final, ran, -⟩ := run_total_of_guarded Access.step (fun _ _ => True) Backed
      (fun s access backed _ => by
        obtain ⟨result, copies, next, called, kept⟩ := backed.call access
        exact ⟨next, by unfold Access.step; rw [called]; rfl, kept⟩)
      .initial calls Sound.initial.backed (.of_forall fun _ _ _ => trivial)
    exact ⟨final, ran⟩
  · refine (Guarded.and guarded (.of_forall fun access there _ => complete access there)).imp Sound ?_ .initial
    intro s access sound both
    have range := sound.inRange both.2 both.1
    exact ⟨range, (sound.usable range).2⟩

/-- A seek to a negative position is not refused, and the copy of a write behind it passes the end of its block. -/
theorem ramfs_offset_negative :
    ¬ Guarded Access.step Usable .initial [.sysLseek 0 (-1) .seekSet, .sysWrite 0 (fun _ => 0) 300 fun _ => true] ∧
      ∃ s copies final, Access.step .initial (.sysLseek 0 (-1) .seekSet) = some s ∧
        (Access.sysWrite 0 (fun _ => 0) 300 fun _ => true).call s = some (300, copies, final) ∧
        copies.map Copy.size = [257, 43] :=
  ⟨fun guarded => absurd (guarded.1.kept _ rfl 0) (by decide), _, _, _, rfl, rfl, rfl⟩

end Phabos.Ramfs
