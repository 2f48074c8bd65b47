import Mathlib.Data.List.Chain
import Mathlib.Data.List.Nodup

namespace Phabos.Library
open List

section Linked
variable {Node : Type*} {points after : Node → Option Node → Prop}

/-- Each node points to the next one, and the last one to an end. -/
def Linked (points : Node → Option Node → Prop) : List Node → Option Node → Prop
  | [], _ => True
  | node :: rest, last => points node (rest.head?.or last) ∧ Linked points rest last

variable {node : Node} {nodes others : List Node} {last : Option Node}

@[simp] theorem linked_nil : Linked points [] last := trivial

theorem linked_cons : Linked points (node :: nodes) last ↔ points node (nodes.head?.or last) ∧ Linked points nodes last :=
  Iff.rfl

/-- Linked nodes in front of others point to the first of these. -/
theorem linked_append :
    Linked points (nodes ++ others) last ↔ Linked points nodes (others.head?.or last) ∧ Linked points others last := by
  induction nodes with
  | nil => exact (and_iff_right trivial).symm
  | cons node nodes ih => rw [cons_append, linked_cons, linked_cons, ih, head?_append, Option.or_assoc, and_assoc]

/-- Nodes stay linked when they point to the same nodes as before. -/
theorem Linked.imp (linked : Linked points nodes last)
    (kept : ∀ node ∈ nodes, ∀ other, points node other → after node other) : Linked after nodes last := by
  induction nodes with
  | nil => trivial
  | cons node nodes ih =>
    exact ⟨kept node mem_cons_self _ linked.1,
      ih linked.2 fun other there => kept other (mem_cons_of_mem _ there)⟩

/-- The nodes are a cycle: each is there once, and the last one points to the first one. -/
def Cycle (points : Node → Option Node → Prop) (nodes : List Node) : Prop :=
  nodes.Nodup ∧ Linked points nodes nodes.head?

/-- A cycle may begin with any of its nodes. -/
theorem Cycle.turn (cycle : Cycle points nodes) (there : node ∈ nodes) :
    ∃ rest, Cycle points (node :: rest) ∧ (node :: rest).Perm nodes := by
  obtain ⟨before, behind, rfl⟩ := append_of_mem there
  have turned : (node :: (behind ++ before)).Perm (before ++ node :: behind) := by
    rw [← cons_append]
    exact perm_append_comm
  refine ⟨behind ++ before, ⟨turned.nodup_iff.mpr cycle.1, ?_⟩, turned⟩
  have linked := cycle.2
  rw [linked_append, head?_append] at linked
  rw [← cons_append, linked_append]
  cases before with
  | nil => exact ⟨linked.2, trivial⟩
  | cons first before => exact ⟨linked.2, linked.1⟩

end Linked

variable {Node : Type}

/-- Each node points to the one before it and to the one after it. -/
structure Links (Node : Type) where
  prev : Node → Node
  next : Node → Node

/-- Two nodes point to each other. -/
def Links.Joined (links : Links Node) (one other : Node) : Prop := links.next one = other ∧ links.prev other = one

/-- The items are a ring that starts and ends at the head. -/
def Links.Ring (links : Links Node) (head : Node) (items : List Node) : Prop :=
  (head :: items).Nodup ∧ List.IsChain links.Joined (head :: items ++ [head])

section Ring
variable {links after : Links Node} {head node : Node} {items : List Node}

/-- The neighbours of an item stand on its two sides. -/
theorem around {before rest first last : List Node} {left right : Node} (low : head :: before = first ++ [left])
    (high : rest ++ [head] = right :: last) :
    head :: (before ++ node :: rest) ++ [head] = first ++ left :: node :: right :: last := by
  have inner : head :: (before ++ node :: rest) ++ [head] = (head :: before) ++ node :: (rest ++ [head]) := by simp
  rw [inner, low, high, append_assoc, singleton_append]

/-- An item has a left and a right neighbour. -/
theorem Links.Ring.split (ring : links.Ring head items) (inside : node ∈ items) :
    ∃ before rest first left right last, items = before ++ node :: rest ∧ head :: before = first ++ [left] ∧
      rest ++ [head] = right :: last ∧ links.Joined left node ∧ links.Joined node right := by
  obtain ⟨before, rest, rfl⟩ := append_of_mem inside
  obtain ⟨first, left, low⟩ : ∃ first left, head :: before = first ++ [left] :=
    ⟨_, _, (dropLast_concat_getLast (cons_ne_nil head before)).symm⟩
  obtain ⟨right, last, high⟩ : ∃ right last, rest ++ [head] = right :: last :=
    exists_cons_of_ne_nil (by simp)
  have chain := ring.2
  rw [around low high, isChain_append_cons_cons, isChain_cons_cons] at chain
  exact ⟨before, rest, first, left, right, last, rfl, low, high, chain.2.1, chain.2.2.1⟩

/-- The last of the head and some items is the head or one of them. -/
theorem last_eq_or_mem {before first : List Node} {left : Node} (low : head :: before = first ++ [left]) :
    before = [] ∧ left = head ∨ left ∈ before := by
  cases first with
  | nil =>
    obtain ⟨rfl, rfl⟩ := cons.inj low
    exact .inl ⟨rfl, rfl⟩
  | cons one others =>
    obtain ⟨-, rfl⟩ := cons.inj low
    exact .inr (mem_append_right _ (mem_singleton_self left))

/-- The first of some items and the head is one of them or the head. -/
theorem first_eq_or_mem {rest last : List Node} {right : Node} (high : rest ++ [head] = right :: last) :
    rest = [] ∧ right = head ∨ right ∈ rest := by
  cases rest with
  | nil =>
    obtain ⟨rfl, -⟩ := cons.inj high
    exact .inl ⟨rfl, rfl⟩
  | cons one others =>
    obtain ⟨rfl, -⟩ := cons.inj high
    exact .inr mem_cons_self

section
variable (ring : links.Ring head items)
include ring

/-- The neighbours of an item are one node exactly when it is the only item. -/
theorem Links.Ring.prev_eq_next (inside : node ∈ items) : links.prev node = links.next node ↔ items.length = 1 := by
  obtain ⟨before, rest, first, left, right, last, rfl, low, high, joinedLow, joinedHigh⟩ := ring.split inside
  obtain ⟨outside, distinct⟩ := nodup_cons.mp ring.1
  have apart := (nodup_append.mp distinct).2.2
  rw [joinedLow.2, joinedHigh.1]
  rcases last_eq_or_mem low with ⟨rfl, rfl⟩ | inLow
  · rcases first_eq_or_mem high with ⟨rfl, rfl⟩ | inHigh
    · exact iff_of_true rfl rfl
    · refine iff_of_false ?_ ?_
      · rintro rfl
        exact outside (mem_append_right _ (mem_cons_of_mem _ inHigh))
      · have some := length_pos_of_mem inHigh
        rw [nil_append, length_cons]
        omega
  · refine iff_of_false ?_ ?_
    · rintro rfl
      rcases first_eq_or_mem high with ⟨-, rfl⟩ | inHigh
      · exact outside (mem_append_left _ inLow)
      · exact apart left inLow left (mem_cons_of_mem _ inHigh) rfl
    · have some := length_pos_of_mem inLow
      rw [length_append, length_cons]
      omega

/-- An item is none of its neighbours. -/
theorem Links.Ring.neighbours (inside : node ∈ items) :
    links.Joined (links.prev node) node ∧ links.Joined node (links.next node) ∧ links.prev node ≠ node ∧
      links.next node ≠ node := by
  obtain ⟨before, rest, first, left, right, last, rfl, low, high, joinedLow, joinedHigh⟩ := ring.split inside
  obtain ⟨outside, distinct⟩ := nodup_cons.mp ring.1
  rw [joinedLow.2, joinedHigh.1]
  refine ⟨joinedLow, joinedHigh, ?_, ?_⟩
  · rintro rfl
    rcases last_eq_or_mem low with ⟨-, rfl⟩ | inLow
    · exact outside inside
    · exact (nodup_append.mp distinct).2.2 left inLow left mem_cons_self rfl
  · rintro rfl
    rcases first_eq_or_mem high with ⟨-, rfl⟩ | inHigh
    · exact outside inside
    · exact (nodup_cons.mp (nodup_append.mp distinct).2.1).1 inHigh

/-- The last node of a ring is joined to the head. -/
theorem Links.Ring.last : links.prev head ∈ head :: items ∧ links.Joined (links.prev head) head := by
  obtain ⟨before, last, whole⟩ : ∃ before last, head :: items = before ++ [last] :=
    ⟨_, _, (dropLast_concat_getLast (cons_ne_nil head items)).symm⟩
  have chain := ring.2
  rw [whole, append_assoc, singleton_append, isChain_append_cons_cons] at chain
  obtain ⟨-, joined, -⟩ := chain
  rw [joined.2, whole]
  exact ⟨mem_append_right _ (mem_singleton_self last), joined⟩

/-- The head points to itself exactly when there are no items. -/
theorem Links.Ring.next_head : links.next head = head ↔ items = [] := by
  cases items with
  | nil => exact iff_of_true ((isChain_pair.mp ring.2).1) rfl
  | cons first rest =>
    refine iff_of_false ?_ (cons_ne_nil first rest)
    have joined := (isChain_cons_cons.mp ring.2).1.1
    rw [joined]
    rintro rfl
    exact (nodup_cons.mp ring.1).1 mem_cons_self

/-- A change of the links that keeps the joined nodes of a ring keeps the ring. -/
theorem Links.Ring.keep
    (kept : ∀ one ∈ head :: items, ∀ other ∈ head :: items, links.Joined one other → after.Joined one other) :
    after.Ring head items := by
  refine ⟨ring.1, ring.2.imp_of_mem_tail_imp fun one other inside behind joined => ?_⟩
  have member {some : Node} (there : some ∈ head :: items ++ [head]) : some ∈ head :: items := by
    rcases mem_append.mp there with there | same
    · exact there
    · exact mem_singleton.mp same ▸ mem_cons_self
  exact kept one (member inside) other (member (mem_of_mem_tail behind)) joined

end

/-- Any item of a ring can be its head: the first one has the old head as its last item. -/
theorem Links.Ring.turn {first : Node} {rest : List Node} :
    links.Ring head (first :: rest) ↔ links.Ring first (rest ++ [head]) := by
  have items : (head :: first :: rest).Perm (first :: (rest ++ [head])) :=
    (perm_append_singleton head (first :: rest)).symm
  have around : first :: (rest ++ [head]) ++ [first] = (first :: rest) ++ head :: first :: [] := by simp
  have chain : List.IsChain links.Joined (head :: first :: rest ++ [head]) ↔
      List.IsChain links.Joined (first :: (rest ++ [head]) ++ [first]) := by
    rw [around, isChain_append_cons_cons, cons_append, cons_append, isChain_cons_cons,
      and_iff_left (isChain_singleton first), and_comm]
  exact and_congr items.nodup_iff chain

/-- A node that no ring has becomes the last item. -/
theorem Links.Ring.insert (ring : links.Ring head items) (fresh : node ∉ head :: items)
    (first : after.Joined (links.prev head) node) (second : after.Joined node head)
    (kept : ∀ one ∈ head :: items, ∀ other ∈ items, links.Joined one other → after.Joined one other) :
    after.Ring head (items ++ [node]) := by
  obtain ⟨before, last, whole⟩ : ∃ before last, head :: items = before ++ [last] :=
    ⟨_, _, (dropLast_concat_getLast (cons_ne_nil head items)).symm⟩
  obtain ⟨distinct, chain⟩ := ring
  have oldEnd : head :: items ++ [head] = before ++ last :: head :: [] := by
    rw [whole, append_assoc]
    rfl
  have newEnd : head :: (items ++ [node]) ++ [head] = before ++ last :: node :: [head] := by
    rw [← cons_append, whole, append_assoc, append_assoc]
    rfl
  rw [oldEnd, isChain_append_cons_cons] at chain
  obtain ⟨inner, joined, -⟩ := chain
  rw [joined.2] at first
  refine ⟨?_, ?_⟩
  · rw [← cons_append, nodup_append]
    exact ⟨distinct, nodup_singleton node, fun one there other same equal =>
      fresh (mem_singleton.mp same ▸ equal ▸ there)⟩
  · rw [newEnd, isChain_append_cons_cons]
    refine ⟨?_, first, isChain_pair.mpr second⟩
    rw [← whole] at inner ⊢
    exact inner.imp_of_mem_tail_imp fun one other inside behind old => kept one inside other behind old

/-- An item leaves its ring. -/
theorem Links.Ring.remove [DecidableEq Node] (ring : links.Ring head items) (inside : node ∈ items)
    (closed : after.Joined (links.prev node) (links.next node))
    (kept : ∀ one ∈ head :: items, ∀ other ∈ head :: items, one ≠ node → other ≠ node →
      links.Joined one other → after.Joined one other) :
    after.Ring head (items.erase node) := by
  obtain ⟨before, rest, first, left, right, last, rfl, low, high, joinedLow, joinedHigh⟩ := ring.split inside
  obtain ⟨distinct, chain⟩ := ring
  obtain ⟨outside, apart⟩ := nodup_cons.mp distinct
  have absent : node ∉ before := fun there =>
    (nodup_append.mp apart).2.2 node there node mem_cons_self rfl
  have absentRest : node ∉ rest := (nodup_cons.mp (nodup_append.mp apart).2.1).1
  have different : node ≠ head := by
    rintro rfl
    exact outside inside
  have shorter : (before ++ node :: rest).erase node = before ++ rest := by
    rw [erase_append_right _ absent, erase_cons_head]
  have outer : head :: (before ++ rest) ++ [head] = first ++ left :: right :: last := by
    have outer : head :: (before ++ rest) ++ [head] = (head :: before) ++ (rest ++ [head]) := by simp
    rw [outer, low, high, append_assoc, singleton_append]
  rw [around low high, isChain_append_cons_cons, isChain_cons_cons] at chain
  obtain ⟨lower, -, -, upper⟩ := chain
  rw [joinedLow.2, joinedHigh.1] at closed
  rw [shorter]
  refine ⟨?_, ?_⟩
  · exact distinct.sublist (((sublist_cons_self node rest).append_left before).cons_cons head)
  · rw [outer, isChain_append_cons_cons]
    rw [← low] at lower ⊢
    rw [← high] at upper ⊢
    have memberLow {some : Node} (there : some ∈ head :: before) :
        some ∈ head :: (before ++ node :: rest) ∧ some ≠ node := by
      rcases mem_cons.mp there with rfl | there
      · exact ⟨mem_cons_self, different.symm⟩
      · refine ⟨mem_cons_of_mem _ (mem_append_left _ there), ?_⟩
        rintro rfl
        exact absent there
    have memberHigh {some : Node} (there : some ∈ rest ++ [head]) :
        some ∈ head :: (before ++ node :: rest) ∧ some ≠ node := by
      rcases mem_append.mp there with there | same
      · refine ⟨mem_cons_of_mem _ (mem_append_right _ (mem_cons_of_mem _ there)), ?_⟩
        rintro rfl
        exact absentRest there
      · obtain rfl := mem_singleton.mp same
        exact ⟨mem_cons_self, different.symm⟩
    refine ⟨lower.imp_of_mem_tail_imp fun one other there behind old => ?_, closed,
      upper.imp_of_mem_tail_imp fun one other there behind old => ?_⟩
    · exact kept one (memberLow there).1 other (memberLow (mem_of_mem_tail behind)).1 (memberLow there).2
        (memberLow (mem_of_mem_tail behind)).2 old
    · exact kept one (memberHigh there).1 other (memberHigh (mem_of_mem_tail behind)).1 (memberHigh there).2
        (memberHigh (mem_of_mem_tail behind)).2 old

end Ring

section Walk
variable [DecidableEq Node] {links : Links Node} {head target : Node} {items : List Node}

/-- Whether a walk from a node meets the target before it comes back to the head. -/
def Links.walk (links : Links Node) (head target : Node) : Nat → Node → Option Bool
  | 0, _ => none
  | fuel + 1, node =>
    if node = head then some false
    else if node = target then some true
    else links.walk head target fuel (links.next node)

/-- A walk that comes to a node of its own never ends. -/
theorem Links.walk_alone {node : Node} (self : links.next node = node) (other : node ≠ head)
    (missed : node ≠ target) (fuel : Nat) : links.walk head target fuel node = none := by
  induction fuel with
  | zero => rfl
  | succ fuel ih => rw [Links.walk, if_neg other, if_neg missed, self, ih]

end Walk

end Phabos.Library
