import Mathlib.Order.Interval.Set.Nat
import Mathlib.Tactic.Ring

namespace Phabos.Library
open Function Option

/-- A tile of some order covers two to that order addresses from its start. -/
structure Tile (Owner : Type*) where
  order : ℕ
  owner : Owner
  free : Bool

/-- A layout gives the tile that starts at each address. -/
abbrev Layout (Owner : Type*) := ℕ → Option (Tile Owner)

/-- These are the addresses of a tile. -/
def extent (start order : ℕ) : Set ℕ := Set.Ico start (start + 2 ^ order)

theorem mem_extent {start order x : ℕ} : x ∈ extent start order ↔ start ≤ x ∧ x < start + 2 ^ order :=
  Set.mem_Ico

theorem start_mem_extent (start order : ℕ) : start ∈ extent start order :=
  mem_extent.mpr ⟨Nat.le_refl _, Nat.lt_add_of_pos_right (Nat.two_pow_pos order)⟩

/-- Two halves make an extent of the next order. -/
theorem mem_extent_succ {start order x : ℕ} :
    x ∈ extent start (order + 1) ↔ x ∈ extent start order ∨ x ∈ extent (start + 2 ^ order) order := by
  simp only [mem_extent, pow_succ]
  omega

/-- The addresses of an aligned tile share one quotient. -/
theorem mem_extent_iff_div {start order x : ℕ} (aligned : 2 ^ order ∣ start) :
    x ∈ extent start order ↔ x / 2 ^ order = start / 2 ^ order := by
  obtain ⟨index, rfl⟩ := aligned
  rw [Nat.mul_div_cancel_left _ (Nat.two_pow_pos order), Nat.div_eq_iff (Nat.two_pow_pos order),
    mem_extent, Nat.mul_comm index]
  have positive := Nat.two_pow_pos order
  omega

/-- Of two aligned tiles that meet, the larger one covers the smaller one. -/
theorem extent_subset_of_mem {small large j k x : ℕ} (alignedSmall : 2 ^ j ∣ small)
    (alignedLarge : 2 ^ k ∣ large) (smaller : j ≤ k) (inSmall : x ∈ extent small j)
    (inLarge : x ∈ extent large k) : extent small j ⊆ extent large k := by
  intro y inside
  rw [mem_extent_iff_div alignedSmall] at inSmall inside
  rw [mem_extent_iff_div alignedLarge] at inLarge ⊢
  rw [← inLarge, ← Nat.add_sub_cancel' smaller, pow_add, ← Nat.div_div_eq_div_mul,
    ← Nat.div_div_eq_div_mul, inside, inSmall]

/-- Two aligned tiles of one order that meet are equal. -/
theorem start_eq_of_mem {first second order x : ℕ} (alignedFirst : 2 ^ order ∣ first)
    (alignedSecond : 2 ^ order ∣ second) (inFirst : x ∈ extent first order)
    (inSecond : x ∈ extent second order) : first = second := by
  rw [mem_extent_iff_div alignedFirst] at inFirst
  rw [mem_extent_iff_div alignedSecond] at inSecond
  have same : first / 2 ^ order = second / 2 ^ order := inFirst.symm.trans inSecond
  rw [← Nat.div_mul_cancel alignedFirst, same, Nat.div_mul_cancel alignedSecond]

/-- The bit of its order tells on which side of its parent an aligned tile lies. -/
theorem testBit_iff_not_aligned {start order : ℕ} (aligned : 2 ^ order ∣ start) :
    start.testBit order = true ↔ ¬ 2 ^ (order + 1) ∣ start := by
  obtain ⟨index, rfl⟩ := aligned
  rw [Nat.testBit_eq_decide_div_mod_eq, decide_eq_true_iff,
    Nat.mul_div_cancel_left _ (Nat.two_pow_pos order), pow_succ,
    Nat.mul_dvd_mul_iff_left (Nat.two_pow_pos order)]
  omega

/-- The lower buddy of an upper half is aligned to the next order. -/
theorem lower_buddy {start order : ℕ} (aligned : 2 ^ order ∣ start) (upper : start.testBit order = true) :
    2 ^ order ≤ start ∧ 2 ^ (order + 1) ∣ start - 2 ^ order := by
  rw [testBit_iff_not_aligned aligned] at upper
  obtain ⟨index, rfl⟩ := aligned
  rw [pow_succ, Nat.mul_dvd_mul_iff_left (Nat.two_pow_pos order)] at upper
  constructor
  · exact Nat.le_mul_of_pos_right _ (by omega)
  · have parent : 2 ^ order * index - 2 ^ order = 2 ^ order * (index - 1) := by
      rw [Nat.mul_sub, Nat.mul_one]
    rw [parent, pow_succ, Nat.mul_dvd_mul_iff_left (Nat.two_pow_pos order)]
    omega

section Layout
variable {Owner : Type*} {space : Owner → Set ℕ} {tiles : Layout Owner}

/-- The tiles are aligned, lie in the space of their owners, never overlap, and leave no gap. -/
structure Tiling (space : Owner → Set ℕ) (tiles : Layout Owner) : Prop where
  aligned : ∀ start tile, tiles start = some tile → 2 ^ tile.order ∣ start
  inside : ∀ start tile, tiles start = some tile → extent start tile.order ⊆ space tile.owner
  apart : ∀ first second one two x, tiles first = some one → tiles second = some two →
    x ∈ extent first one.order → x ∈ extent second two.order → first = second
  covered : ∀ owner x, x ∈ space owner →
    ∃ start tile, tiles start = some tile ∧ tile.owner = owner ∧ x ∈ extent start tile.order

/-- A tile splits into two free halves. -/
def Layout.split (tiles : Layout Owner) (start order : ℕ) (owner : Owner) : Layout Owner :=
  update (update tiles start (some ⟨order, owner, true⟩))
    (start + 2 ^ order) (some ⟨order, owner, true⟩)

/-- Two halves merge into one free tile. -/
def Layout.merge (tiles : Layout Owner) (start order : ℕ) (owner : Owner) : Layout Owner :=
  update (update tiles (start + 2 ^ order) none)
    start (some ⟨order + 1, owner, true⟩)

/-- A tile changes hands. -/
def Layout.mark (tiles : Layout Owner) (start : ℕ) (free : Bool) : Layout Owner :=
  update tiles start ((tiles start).map fun tile => { tile with free := free })

variable {start order : ℕ}

variable {tile : Tile Owner}

variable {owner : Owner}

theorem Layout.split_eq_some {b : ℕ} :
    tiles.split start order owner b = some tile ↔
      (b = start ∨ b = start + 2 ^ order) ∧ tile = ⟨order, owner, true⟩ ∨
        b ≠ start ∧ b ≠ start + 2 ^ order ∧ tiles b = some tile := by
  unfold split
  by_cases high : b = start + 2 ^ order
  · subst b
    simp [eq_comm]
  · by_cases low : b = start
    · subst b
      simp [eq_comm]
    · simp [high, low]

theorem Layout.merge_eq_some {b : ℕ} :
    tiles.merge start order owner b = some tile ↔
      b = start ∧ tile = ⟨order + 1, owner, true⟩ ∨
        b ≠ start ∧ b ≠ start + 2 ^ order ∧ tiles b = some tile := by
  unfold merge
  by_cases low : b = start
  · subst b
    simp [eq_comm]
  · by_cases high : b = start + 2 ^ order
    · subst b
      simp
    · simp [high, low]

theorem Layout.mark_eq_some {start : ℕ} {free : Bool} {b : ℕ} :
    tiles.mark start free b = some tile ↔
      b = start ∧ (∃ old, tiles start = some old ∧ tile = { old with free := free }) ∨
        b ≠ start ∧ tiles b = some tile := by
  unfold mark
  by_cases here : b = start
  · subst b
    simp [eq_comm]
  · simp [here]

section
variable (tiling : Tiling space tiles)
include tiling

/-- The upper half of a tile is no tile of its own. -/
theorem Tiling.upper_none (found : tiles start = some tile) (larger : order < tile.order) :
    tiles (start + 2 ^ order) = none := by
  rw [eq_none_iff_forall_ne_some]
  intro upper same
  have inside : start + 2 ^ order ∈ extent start tile.order :=
    mem_extent.mpr ⟨Nat.le_add_right _ _, Nat.add_lt_add_left (Nat.pow_lt_pow_right (by omega) larger) _⟩
  have equal := tiling.apart _ _ _ _ _ found same inside (start_mem_extent _ _)
  have positive := Nat.two_pow_pos order
  omega

/-- A split keeps the tiling. -/
theorem Tiling.split (found : tiles start = some tile) (large : tile.order = order + 1) :
    Tiling space (Layout.split tiles start order tile.owner) := by
  have aligned : 2 ^ (order + 1) ∣ start := large ▸ tiling.aligned start tile found
  have alignedLow : 2 ^ order ∣ start := dvd_trans (pow_dvd_pow 2 (by omega)) aligned
  have whole {b x : ℕ} (half : b = start ∨ b = start + 2 ^ order) (inside : x ∈ extent b order) :
      x ∈ extent start tile.order := by
    rw [large, mem_extent_succ]
    rcases half with rfl | rfl
    · exact .inl inside
    · exact .inr inside
  constructor
  · intro b part entry
    rcases Layout.split_eq_some.mp entry with ⟨half, rfl⟩ | ⟨_, _, old⟩
    · rcases half with rfl | rfl
      · exact alignedLow
      · exact Nat.dvd_add alignedLow (dvd_refl _)
    · exact tiling.aligned b part old
  · intro b part entry
    rcases Layout.split_eq_some.mp entry with ⟨half, rfl⟩ | ⟨_, _, old⟩
    · exact fun x inside => tiling.inside start tile found (whole half inside)
    · exact tiling.inside b part old
  · intro first second one two x entryFirst entrySecond inFirst inSecond
    rcases Layout.split_eq_some.mp entryFirst with ⟨halfFirst, rfl⟩ | ⟨apart, _, oldFirst⟩
    · rcases Layout.split_eq_some.mp entrySecond with ⟨halfSecond, rfl⟩ | ⟨apart, _, oldSecond⟩
      · rw [mem_extent] at inFirst inSecond
        have positive := Nat.two_pow_pos order
        dsimp only at inFirst inSecond
        rcases halfFirst with rfl | rfl <;> rcases halfSecond with rfl | rfl <;> omega
      · exact absurd (tiling.apart _ _ _ _ x oldSecond found inSecond (whole halfFirst inFirst)) apart
    · rcases Layout.split_eq_some.mp entrySecond with ⟨halfSecond, rfl⟩ | ⟨_, _, oldSecond⟩
      · exact absurd (tiling.apart _ _ _ _ x oldFirst found inFirst (whole halfSecond inSecond)) apart
      · exact tiling.apart _ _ _ _ x oldFirst oldSecond inFirst inSecond
  · intro owner x inside
    obtain ⟨b, part, old, owned, covers⟩ := tiling.covered owner x inside
    by_cases here : b = start
    · subst b
      obtain rfl : tile = part := some.inj (found.symm.trans old)
      rw [large, mem_extent_succ] at covers
      rcases covers with low | high
      · exact ⟨start, _, Layout.split_eq_some.mpr (.inl ⟨.inl rfl, rfl⟩), owned, low⟩
      · exact ⟨_, _, Layout.split_eq_some.mpr (.inl ⟨.inr rfl, rfl⟩), owned, high⟩
    · refine ⟨b, part, Layout.split_eq_some.mpr (.inr ⟨here, ?_, old⟩), owned, covers⟩
      rintro rfl
      rw [tiling.upper_none found (by omega)] at old
      exact absurd old (by simp)

/-- A merge of two buddies keeps the tiling. -/
theorem Tiling.merge {start : ℕ} {low high : Tile Owner} (foundLow : tiles start = some low)
    (foundHigh : tiles (start + 2 ^ low.order) = some high) (sameOrder : high.order = low.order)
    (sameOwner : high.owner = low.owner) (aligned : 2 ^ (low.order + 1) ∣ start) :
    Tiling space (Layout.merge tiles start low.order low.owner) := by
  have halves {x : ℕ} (inside : x ∈ extent start (low.order + 1)) :
      x ∈ extent start low.order ∨ x ∈ extent (start + 2 ^ low.order) high.order := by
    rwa [sameOrder, ← mem_extent_succ]
  have elsewhere {b x : ℕ} {part : Tile Owner} (old : tiles b = some part)
      (inside : x ∈ extent b part.order) (within : x ∈ extent start (low.order + 1)) :
      b = start ∨ b = start + 2 ^ low.order := by
    rcases halves within with inLow | inHigh
    · exact .inl (tiling.apart _ _ _ _ x old foundLow inside inLow)
    · exact .inr (tiling.apart _ _ _ _ x old foundHigh inside inHigh)
  constructor
  · intro b part entry
    rcases Layout.merge_eq_some.mp entry with ⟨rfl, rfl⟩ | ⟨_, _, old⟩
    · exact aligned
    · exact tiling.aligned b part old
  · intro b part entry
    rcases Layout.merge_eq_some.mp entry with ⟨rfl, rfl⟩ | ⟨_, _, old⟩
    · intro x inside
      rcases halves inside with inLow | inHigh
      · exact tiling.inside _ _ foundLow inLow
      · exact sameOwner ▸ tiling.inside _ _ foundHigh inHigh
    · exact tiling.inside b part old
  · intro first second one two x entryFirst entrySecond inFirst inSecond
    rcases Layout.merge_eq_some.mp entryFirst with ⟨rfl, rfl⟩ | ⟨notLow, notHigh, oldFirst⟩
    · rcases Layout.merge_eq_some.mp entrySecond with ⟨rfl, rfl⟩ | ⟨notLow, notHigh, oldSecond⟩
      · rfl
      · rcases elsewhere oldSecond inSecond inFirst with same | same <;> contradiction
    · rcases Layout.merge_eq_some.mp entrySecond with ⟨rfl, rfl⟩ | ⟨_, _, oldSecond⟩
      · rcases elsewhere oldFirst inFirst inSecond with same | same <;> contradiction
      · exact tiling.apart _ _ _ _ x oldFirst oldSecond inFirst inSecond
  · intro owner x inside
    obtain ⟨b, part, old, owned, covers⟩ := tiling.covered owner x inside
    by_cases half : b = start ∨ b = start + 2 ^ low.order
    · refine ⟨start, _, Layout.merge_eq_some.mpr (.inl ⟨rfl, rfl⟩), ?_, ?_⟩
      · rcases half with rfl | rfl
        · obtain rfl : low = part := some.inj (foundLow.symm.trans old)
          exact owned
        · obtain rfl : high = part := some.inj (foundHigh.symm.trans old)
          exact sameOwner ▸ owned
      · rw [mem_extent_succ]
        rcases half with rfl | rfl
        · obtain rfl : low = part := some.inj (foundLow.symm.trans old)
          exact .inl covers
        · obtain rfl : high = part := some.inj (foundHigh.symm.trans old)
          exact .inr (sameOrder ▸ covers)
    · obtain ⟨notLow, notHigh⟩ := not_or.mp half
      exact ⟨b, part, Layout.merge_eq_some.mpr (.inr ⟨notLow, notHigh, old⟩), owned, covers⟩

/-- A change of hands keeps the tiling. -/
theorem Tiling.mark (start : ℕ) (free : Bool) : Tiling space (Layout.mark tiles start free) := by
  have same {b : ℕ} {tile : Tile Owner} (entry : Layout.mark tiles start free b = some tile) :
      ∃ old, tiles b = some old ∧ tile.order = old.order ∧ tile.owner = old.owner := by
    rcases Layout.mark_eq_some.mp entry with ⟨rfl, old, found, rfl⟩ | ⟨_, found⟩
    · exact ⟨old, found, rfl, rfl⟩
    · exact ⟨tile, found, rfl, rfl⟩
  constructor
  · intro b tile entry
    obtain ⟨old, found, order, _⟩ := same entry
    exact order ▸ tiling.aligned b old found
  · intro b tile entry
    obtain ⟨old, found, order, owner⟩ := same entry
    rw [order, owner]
    exact tiling.inside b old found
  · intro first second one two x entryFirst entrySecond inFirst inSecond
    obtain ⟨oldFirst, foundFirst, orderFirst, _⟩ := same entryFirst
    obtain ⟨oldSecond, foundSecond, orderSecond, _⟩ := same entrySecond
    rw [orderFirst] at inFirst
    rw [orderSecond] at inSecond
    exact tiling.apart _ _ _ _ x foundFirst foundSecond inFirst inSecond
  · intro owner x inside
    obtain ⟨b, tile, found, owned, covers⟩ := tiling.covered owner x inside
    by_cases here : b = start
    · subst b
      exact ⟨start, _, Layout.mark_eq_some.mpr (.inl ⟨rfl, tile, found, rfl⟩), owned, covers⟩
    · exact ⟨b, tile, Layout.mark_eq_some.mpr (.inr ⟨here, found⟩), owned, covers⟩

/-- A new space that meets no other one becomes one free tile. -/
theorem Tiling.add {wider : Owner → Set ℕ} (aligned : 2 ^ order ∣ start) (own : wider owner = extent start order)
    (others : ∀ other, other ≠ owner → wider other = space other) (empty : space owner = ∅)
    (outside : ∀ other x, x ∈ extent start order → x ∉ space other) :
    Tiling wider (update tiles start (some ⟨order, owner, true⟩)) := by
  have cases {b : ℕ} {tile : Tile Owner}
      (entry : update tiles start (some ⟨order, owner, true⟩) b = some tile) :
      b = start ∧ tile = ⟨order, owner, true⟩ ∨ tiles b = some tile ∧ tile.owner ≠ owner := by
    by_cases here : b = start
    · subst b
      exact .inl ⟨rfl, by simpa using entry.symm⟩
    · rw [update_of_ne here] at entry
      refine .inr ⟨entry, fun same => ?_⟩
      have inside := tiling.inside b tile entry (start_mem_extent b _)
      rw [same, empty] at inside
      exact inside
  constructor
  · intro b tile entry
    rcases cases entry with ⟨rfl, rfl⟩ | ⟨old, _⟩
    · exact aligned
    · exact tiling.aligned b tile old
  · intro b tile entry
    rcases cases entry with ⟨rfl, rfl⟩ | ⟨old, apart⟩
    · rw [own]
    · rw [others _ apart]
      exact tiling.inside b tile old
  · intro first second one two x entryFirst entrySecond inFirst inSecond
    rcases cases entryFirst with ⟨rfl, rfl⟩ | ⟨oldFirst, _⟩
    · rcases cases entrySecond with ⟨rfl, rfl⟩ | ⟨oldSecond, _⟩
      · rfl
      · exact absurd (tiling.inside _ _ oldSecond inSecond) (outside _ x inFirst)
    · rcases cases entrySecond with ⟨rfl, rfl⟩ | ⟨oldSecond, _⟩
      · exact absurd (tiling.inside _ _ oldFirst inFirst) (outside _ x inSecond)
      · exact tiling.apart _ _ _ _ x oldFirst oldSecond inFirst inSecond
  · intro other x inside
    by_cases same : other = owner
    · subst other
      rw [own] at inside
      exact ⟨start, _, update_self .., rfl, inside⟩
    · rw [others other same] at inside
      obtain ⟨b, tile, found, owned, covers⟩ := tiling.covered other x inside
      have apart : b ≠ start := by
        rintro rfl
        exact outside _ b (start_mem_extent b order) (tiling.inside b tile found (start_mem_extent b _))
      exact ⟨b, tile, by rw [update_of_ne apart, found], owned, covers⟩

end

/-- Two free tiles of one order and one owner are buddies when they fill a tile of the next order. -/
structure Buddies (tiles : Layout Owner) (start order : ℕ) (owner : Owner) : Prop where
  low : tiles start = some ⟨order, owner, true⟩
  high : tiles (start + 2 ^ order) = some ⟨order, owner, true⟩
  aligned : 2 ^ (order + 1) ∣ start

/-- No two buddies remain. -/
def BuddyFree (tiles : Layout Owner) : Prop := ∀ start order owner, ¬ Buddies tiles start order owner

/-- Only the tile at one address may have a buddy. -/
def BuddyFreeExcept (tiles : Layout Owner) (start : ℕ) : Prop :=
  ∀ low order owner, Buddies tiles low order owner → low = start ∨ low + 2 ^ order = start

theorem BuddyFree.except (free : BuddyFree tiles) (start : ℕ) : BuddyFreeExcept tiles start :=
  fun low order owner buddies => absurd buddies (free low order owner)

/-- The only tile of a new space has no buddy. -/
theorem BuddyFree.add (free : BuddyFree tiles) (tiling : Tiling space tiles) (empty : space owner = ∅) :
    BuddyFree (update tiles start (some ⟨order, owner, true⟩)) := by
  have unowned {b size : ℕ} {free : Bool} (entry : tiles b = some ⟨size, owner, free⟩) : False := by
    have inside := tiling.inside b _ entry (start_mem_extent b _)
    rw [empty] at inside
    exact inside
  intro low size other buddies
  have lower := buddies.low
  have upper := buddies.high
  have positive := Nat.two_pow_pos size
  by_cases here : low = start
  · subst low
    rw [update_self, some.injEq, Tile.mk.injEq] at lower
    obtain ⟨rfl, rfl, _⟩ := lower
    rw [update_of_ne (by omega)] at upper
    exact unowned upper
  · rw [update_of_ne here] at lower
    by_cases there : low + 2 ^ size = start
    · rw [there, update_self, some.injEq, Tile.mk.injEq] at upper
      obtain ⟨rfl, rfl, _⟩ := upper
      exact unowned lower
    · rw [update_of_ne there] at upper
      exact free low size other ⟨lower, upper, buddies.aligned⟩

/-- A tile in use has no buddy. -/
theorem BuddyFreeExcept.taken {start : ℕ} (free : BuddyFreeExcept tiles start) :
    BuddyFree (Layout.mark tiles start false) := by
  have old {b order : ℕ} {owner : Owner}
      (entry : Layout.mark tiles start false b = some ⟨order, owner, true⟩) :
      b ≠ start ∧ tiles b = some ⟨order, owner, true⟩ := by
    rcases Layout.mark_eq_some.mp entry with ⟨_, tile, _, same⟩ | kept
    · cases same
    · exact kept
  intro low order owner buddies
  have lower := old buddies.low
  have upper := old buddies.high
  rcases free low order owner ⟨lower.2, upper.2, buddies.aligned⟩ with same | same
  · exact lower.1 same
  · exact upper.1 same

/-- A release gives a buddy to the released tile at most. -/
theorem BuddyFree.released (free : BuddyFree tiles) (start : ℕ) :
    BuddyFreeExcept (Layout.mark tiles start true) start := by
  intro low order owner buddies
  by_contra away
  obtain ⟨notLow, notHigh⟩ := not_or.mp away
  rcases Layout.mark_eq_some.mp buddies.low with ⟨same, _⟩ | ⟨_, lower⟩
  · exact notLow same
  rcases Layout.mark_eq_some.mp buddies.high with ⟨same, _⟩ | ⟨_, upper⟩
  · exact notHigh same
  exact free low order owner ⟨lower, upper, buddies.aligned⟩

/-- A split gives buddies to its lower half at most. -/
theorem BuddyFreeExcept.split (tiling : Tiling space tiles) (free : BuddyFreeExcept tiles start)
    (found : tiles start = some tile) (large : tile.order = order + 1) :
    BuddyFreeExcept (Layout.split tiles start order tile.owner) start := by
  have aligned : 2 ^ (order + 1) ∣ start := large ▸ tiling.aligned start tile found
  intro low size owner buddies
  by_contra away
  obtain ⟨notLow, notHigh⟩ := not_or.mp away
  have positive := Nat.two_pow_pos order
  rcases Layout.split_eq_some.mp buddies.low with ⟨half, same⟩ | ⟨_, _, lower⟩
  · obtain rfl := half.resolve_left notLow
    obtain ⟨rfl, rfl⟩ : size = order ∧ owner = tile.owner := by simpa using same
    -- The upper half is not aligned to the next order.
    have offset := (Nat.dvd_add_right aligned).mp buddies.aligned
    have bound := Nat.le_of_dvd positive offset
    rw [pow_succ] at bound
    omega
  rcases Layout.split_eq_some.mp buddies.high with ⟨half, same⟩ | ⟨_, _, upper⟩
  · have equal := half.resolve_left notHigh
    obtain ⟨rfl, rfl⟩ : size = order ∧ owner = tile.owner := by simpa using same
    exact notLow (by omega)
  rcases free low size owner ⟨lower, upper, buddies.aligned⟩ with same | same
  · exact notLow same
  · exact notHigh same

/-- A merge gives a buddy to the merged tile at most. -/
theorem BuddyFreeExcept.merge {start order b : ℕ} (owner : Owner) (free : BuddyFreeExcept tiles b)
    (half : b = start ∨ b = start + 2 ^ order) :
    BuddyFreeExcept (Layout.merge tiles start order owner) start := by
  intro low size other buddies
  by_contra away
  obtain ⟨notLow, notHigh⟩ := not_or.mp away
  rcases Layout.merge_eq_some.mp buddies.low with ⟨same, _⟩ | ⟨_, lowApart, lower⟩
  · exact notLow same
  rcases Layout.merge_eq_some.mp buddies.high with ⟨same, _⟩ | ⟨_, highApart, upper⟩
  · exact notHigh same
  rcases free low size other ⟨lower, upper, buddies.aligned⟩ with same | same
  · rcases half with rfl | rfl
    · exact notLow same
    · exact lowApart same
  · rcases half with rfl | rfl
    · exact notHigh same
    · exact highApart same

/-- In a space of a power of two whose tiles all have at least some order, the parent of a tile of
that order consists of two such tiles. -/
theorem Tiling.halves (tiling : Tiling space tiles) {start order b : ℕ}
    {least : Tile Owner} (whole : space owner = extent start order) (aligned : 2 ^ order ∣ start)
    (entry : tiles b = some least) (owned : least.owner = owner) (smaller : least.order < order)
    (smallest : ∀ c tile, tiles c = some tile → tile.owner = owner → least.order ≤ tile.order) :
    ∃ parent, 2 ^ (least.order + 1) ∣ parent ∧
      ∀ half, half = parent ∨ half = parent + 2 ^ least.order →
        ∃ tile, tiles half = some tile ∧ tile.order = least.order ∧ tile.owner = owner := by
  let parent := b / 2 ^ (least.order + 1) * 2 ^ (least.order + 1)
  have parentAligned : 2 ^ (least.order + 1) ∣ parent := Nat.dvd_mul_left _ _
  have parentLow : 2 ^ least.order ∣ parent := dvd_trans (pow_dvd_pow 2 (by omega)) parentAligned
  have within : b ∈ extent parent (least.order + 1) := by
    rw [mem_extent_iff_div parentAligned, Nat.mul_div_cancel _ (Nat.two_pow_pos _)]
  have inSpace : b ∈ extent start order := by
    rw [← whole, ← owned]
    exact tiling.inside b least entry (start_mem_extent b _)
  refine ⟨parent, parentAligned, fun half side => ?_⟩
  have halfAligned : 2 ^ least.order ∣ half := by
    rcases side with rfl | rfl
    · exact parentLow
    · exact Nat.dvd_add parentLow (dvd_refl _)
  have halfInside : half ∈ extent parent (least.order + 1) := by
    rw [mem_extent_succ]
    rcases side with rfl | rfl
    · exact .inl (start_mem_extent _ _)
    · exact .inr (start_mem_extent _ _)
  have member : half ∈ space owner := by
    rw [whole]
    exact extent_subset_of_mem parentAligned aligned smaller within inSpace halfInside
  obtain ⟨c, tile, found, sameOwner, covers⟩ := tiling.covered owner half member
  have equalOrder : tile.order = least.order := by
    by_contra different
    -- A larger tile would cover the whole parent, and the small tile with it.
    have larger : least.order + 1 ≤ tile.order := by
      have bound := smallest c tile found sameOwner
      omega
    have overlap := extent_subset_of_mem parentAligned (tiling.aligned c tile found) larger
      halfInside covers within
    obtain rfl := tiling.apart c b tile least b found entry overlap (start_mem_extent b _)
    obtain rfl : tile = least := some.inj (found.symm.trans entry)
    exact different rfl
  have atHalf : c = half := by
    have alignedTile := tiling.aligned c tile found
    rw [equalOrder] at alignedTile covers
    exact start_eq_of_mem alignedTile halfAligned covers (start_mem_extent half _)
  exact ⟨tile, atHalf ▸ found, equalOrder, sameOwner⟩

/-- When every tile is free and no buddies remain, a space of a power of two is one tile. -/
theorem Tiling.single (tiling : Tiling space tiles) (free : BuddyFree tiles) (whole : space owner = extent start order)
    (aligned : 2 ^ order ∣ start) (allFree : ∀ b tile, tiles b = some tile → tile.owner = owner → tile.free = true) :
    tiles start = some ⟨order, owner, true⟩ ∧
      ∀ b tile, tiles b = some tile → tile.owner = owner → b = start := by
  classical
  have shape {b : ℕ} {tile : Tile Owner} (found : tiles b = some tile) (owned : tile.owner = owner) :
      tile = ⟨tile.order, owner, true⟩ := by
    rw [← owned, ← allFree b tile found owned]
  obtain ⟨first, one, found, owned, _⟩ := tiling.covered owner start (whole ▸ start_mem_extent start order)
  have someOrder : ∃ k b tile, tiles b = some tile ∧ tile.owner = owner ∧ tile.order = k :=
    ⟨_, first, one, found, owned, rfl⟩
  obtain ⟨b, least, entry, leastOwned, leastOrder⟩ := Nat.find_spec someOrder
  have smallest (c : ℕ) (tile : Tile Owner) (other : tiles c = some tile) (same : tile.owner = owner) :
      least.order ≤ tile.order := by
    rw [leastOrder]
    exact Nat.find_le ⟨c, tile, other, same, rfl⟩
  have alignedLeast := tiling.aligned b least entry
  have insideLeast : extent b least.order ⊆ extent start order := by
    rw [← whole, ← leastOwned]
    exact tiling.inside b least entry
  have bounded : least.order ≤ order := by
    by_contra larger
    have low := mem_extent.mp (insideLeast (start_mem_extent b _))
    have positive := Nat.two_pow_pos least.order
    have high := mem_extent.mp (insideLeast (mem_extent.mpr
      (show b ≤ b + 2 ^ least.order - 1 ∧ b + 2 ^ least.order - 1 < b + 2 ^ least.order by omega)))
    have longer : 2 ^ order < 2 ^ least.order := Nat.pow_lt_pow_right (by omega) (by omega)
    omega
  have full : least.order = order := by
    by_contra different
    obtain ⟨parent, parentAligned, halves⟩ :=
      tiling.halves whole aligned entry leastOwned (by omega) smallest
    obtain ⟨low, foundLow, lowOrder, lowOwned⟩ := halves parent (.inl rfl)
    obtain ⟨high, foundHigh, highOrder, highOwned⟩ := halves _ (.inr rfl)
    rw [shape foundLow lowOwned, lowOrder] at foundLow
    rw [shape foundHigh highOwned, highOrder] at foundHigh
    exact free parent least.order owner ⟨foundLow, foundHigh, parentAligned⟩
  have atStart : b = start := by
    rw [full] at insideLeast alignedLeast
    exact start_eq_of_mem alignedLeast aligned (start_mem_extent b order)
      (insideLeast (start_mem_extent b order))
  subst b
  refine ⟨?_, fun c tile other same => ?_⟩
  · rw [entry, shape entry leastOwned, full]
  · have inside := tiling.inside c tile other (start_mem_extent c _)
    rw [same, whole, ← full] at inside
    exact tiling.apart _ _ _ _ c other entry (start_mem_extent c _) inside

end Layout

end Phabos.Library
