import Phabos.Proof.Mm.Allocation

namespace Phabos.Mm
open Library Function

section List
variable {Node : Type} [DecidableEq Node] {links : Links Node} {head node : Node} {items : List Node}

theorem next_listAdd (different : node ≠ head) (x : Node) :
    (listAdd links head node).next x =
      if x = links.prev head then node else if x = node then head else links.next x := by
  unfold listAdd setPrev setNext
  simp only [update_apply, different.symm, if_false]

theorem prev_listAdd (x : Node) :
    (listAdd links head node).prev x =
      if x = head then node else if x = node then links.prev head else links.prev x := by
  unfold listAdd setPrev setNext
  simp only [update_apply]

theorem next_listDel (x : Node) :
    (listDel links node).next x =
      if x = node then node else if x = links.prev node then links.next node else links.next x := by
  unfold listDel listInit setPrev setNext
  simp only [update_apply]

theorem prev_listDel (x : Node) :
    (listDel links node).prev x =
      if x = node then node else if x = links.next node then links.prev node else links.prev x := by
  unfold listDel listInit setPrev setNext
  simp only [update_apply, ite_self]

section
variable (ring : links.Ring head items)
include ring

theorem joined_listAdd (different : node ≠ head) {one other : Node} (apartOne : one ≠ node) (apartOther : other ≠ node)
    (inner : other ≠ head) (old : links.Joined one other) : (listAdd links head node).Joined one other := by
  obtain ⟨next, prev⟩ := old
  refine ⟨?_, ?_⟩
  · rw [next_listAdd different, if_neg, if_neg apartOne, next]
    rintro rfl
    exact inner (next.symm.trans ring.last.2.1)
  · rw [prev_listAdd, if_neg inner, if_neg apartOther, prev]

theorem joined_listDel (inside : node ∈ items) {one other : Node} (apartOne : one ≠ node) (apartOther : other ≠ node)
    (old : links.Joined one other) : (listDel links node).Joined one other := by
  obtain ⟨low, high, -, -⟩ := ring.neighbours inside
  obtain ⟨next, prev⟩ := old
  refine ⟨?_, ?_⟩
  · rw [next_listDel, if_neg apartOne, if_neg, next]
    rintro rfl
    exact apartOther (next.symm.trans low.1)
  · rw [prev_listDel, if_neg apartOther, if_neg, prev]
    rintro rfl
    exact apartOne (prev.symm.trans high.2)

theorem ring_listAdd (fresh : node ∉ head :: items) : (listAdd links head node).Ring head (items ++ [node]) := by
  have different : node ≠ head := fun same => fresh (same ▸ List.mem_cons_self)
  have apart : node ≠ links.prev head := fun same => fresh (same ▸ ring.last.1)
  refine ring.insert fresh ⟨?_, ?_⟩ ⟨?_, ?_⟩ fun one there other behind old =>
    joined_listAdd ring different ?_ ?_ ?_ old
  · rw [next_listAdd different, if_pos rfl]
  · rw [prev_listAdd, if_neg different, if_pos rfl]
  · rw [next_listAdd different, if_neg apart, if_pos rfl]
  · rw [prev_listAdd, if_pos rfl]
  · rintro rfl
    exact fresh there
  · rintro rfl
    exact fresh (List.mem_cons_of_mem _ behind)
  · rintro rfl
    exact (List.nodup_cons.mp ring.1).1 behind

theorem ring_listAdd_of_apart (different : node ≠ head) {base : Node} {others : List Node}
    (other : links.Ring base others) (outside : node ∉ base :: others) (apart : head ∉ base :: others) :
    (listAdd links head node).Ring base others :=
  other.keep fun _ there _ behind old => joined_listAdd ring different (fun same => outside (same ▸ there))
    (fun same => outside (same ▸ behind)) (fun same => apart (same ▸ behind)) old

theorem ring_listDel (inside : node ∈ items) : (listDel links node).Ring head (items.erase node) := by
  obtain ⟨-, -, left, right⟩ := ring.neighbours inside
  refine ring.remove inside ⟨?_, ?_⟩ fun one _ other _ apartOne apartOther old =>
    joined_listDel ring inside apartOne apartOther old
  · rw [next_listDel, if_neg left, if_pos rfl]
  · rw [prev_listDel, if_neg right, if_pos rfl]

theorem ring_listDel_of_apart (inside : node ∈ items) {base : Node} {others : List Node}
    (other : links.Ring base others) (outside : node ∉ base :: others) : (listDel links node).Ring base others :=
  other.keep fun _ there _ behind old => joined_listDel ring inside (fun same => outside (same ▸ there))
    (fun same => outside (same ▸ behind)) old

end

end List

/-- The rings of the buckets hold the listed buffers, with the same headers and the same counter. -/
structure Heap.LinkedBy (s : Heap) (t : LinkedHeap) : Prop where
  rings : ∀ bucket, t.links.Ring (.mmBucket bucket) ((s.mmBucket bucket).map Node.buffer)
  buffer : t.buffer = s.buffer
  used : t.used = s.used

section Linked
variable {s : Heap} {t : LinkedHeap} {bucket block : Nat}

theorem Node.buffer_injective : Function.Injective Node.buffer := fun _ _ same => Node.buffer.inj same

theorem buffer_mem_ring {k : Nat} {items : List Nat} :
    Node.buffer block ∈ .mmBucket k :: items.map Node.buffer ↔ block ∈ items := by
  rw [List.mem_cons, List.mem_map_of_injective Node.buffer_injective, or_iff_right]
  exact fun same => by cases same

theorem mmBucket_mem_ring {k : Nat} {items : List Nat} :
    Node.mmBucket bucket ∈ .mmBucket k :: items.map Node.buffer ↔ bucket = k := by
  rw [List.mem_cons, or_iff_left, Node.mmBucket.injEq]
  intro there
  obtain ⟨_, -, same⟩ := List.mem_map.mp there
  cases same

theorem Heap.LinkedBy.listAdd (linked : s.LinkedBy t) (bucket : Nat) (fresh : ∀ k, block ∉ s.mmBucket k) :
    (s.listAdd bucket block).LinkedBy
      { t with links := Mm.listAdd t.links (.mmBucket bucket) (.buffer block) } := by
  have ring := linked.rings bucket
  have different : Node.buffer block ≠ .mmBucket bucket := fun same => by cases same
  refine ⟨fun k => ?_, linked.buffer, linked.used⟩
  unfold Heap.listAdd
  dsimp only
  by_cases same : k = bucket
  · subst k
    rw [update_self, List.map_append]
    exact ring_listAdd ring fun there => fresh bucket (buffer_mem_ring.mp there)
  · rw [update_of_ne same]
    exact ring_listAdd_of_apart ring different (linked.rings k) (fun there => fresh k (buffer_mem_ring.mp there))
      fun there => same (mmBucket_mem_ring.mp there).symm

end Linked

end Phabos.Mm
