import Phabos.Library.Ring
import Phabos.Library.Run

/-
This file embeds lib/hashtable.c: open addressing with linear probing and tombstones.
-/

namespace Phabos

/-- The hash and compare functions of one kind of key stay inside the table and separate keys. -/
structure KeyClass (K : Type) where
  hash : Nat → K → Nat
  compare : K → K → Int
  hash_lt : ∀ size key, 0 < size → hash size key < size
  compare_eq_zero : ∀ first second, compare first second = 0 ↔ first = second

/-- The default key and value stand for the null pointers of a cleared slot. -/
structure HashtableNode (K V : Type) where
  key : K
  value : V
  isUsed : Bool
  isDeleted : Bool

structure Hashtable (K V : Type) where
  table : Nat → HashtableNode K V
  size : Nat
  count : Nat
  keys : KeyClass K

namespace Hashtable
variable {K V : Type} [Inhabited K] [Inhabited V]

/-- `zalloc` clears every slot of a new table. -/
def clearedNode : HashtableNode K V := ⟨default, default, false, false⟩

def minSize : Nat := 8

/-- `hashtable_create` allocates the smallest table. -/
def create (keys : KeyClass K) : Hashtable K V := ⟨fun _ => clearedNode, minSize, 0, keys⟩

/-- The loop of `hashtable_get_node` stops when its condition fails at the slot. -/
def stops (ht : Hashtable K V) (key : K) (findDeleted : Bool) (h : Nat) : Bool :=
  !(((ht.table h).isUsed && ht.keys.compare (ht.table h).key key != 0) ||
    ((ht.table h).isDeleted && !findDeleted))

/-- This is the loop of `hashtable_get_node`, cut off after `fuel` iterations. -/
def probeFor (ht : Hashtable K V) (key : K) (findDeleted : Bool) (fuel : Nat) : Option Nat :=
  Library.probe ht.size (ht.stops key findDeleted) fuel (ht.keys.hash ht.size key)

/-- A probe that makes a full turn of the table never returns. -/
def getNode (ht : Hashtable K V) (key : K) (findDeleted : Bool) : Option Nat :=
  ht.probeFor key findDeleted ht.size

/-- `hashtable_add` writes the slot and counts it when it was not in use. -/
def store (ht : Hashtable K V) (i : Nat) (key : K) (value : V) : Hashtable K V :=
  { ht with
    table := Function.update ht.table i ⟨key, value, true, false⟩
    count := if (ht.table i).isUsed then ht.count else ht.count + 1 }

/-- The first probe skips tombstones; the second one reuses them. -/
def findSlot (ht : Hashtable K V) (key : K) : Option Nat :=
  (ht.getNode key false).bind fun node =>
    if (ht.table node).isUsed then some node else ht.getNode key true

/-- `hashtable_resize` enters every used slot of the old table into a cleared one. -/
def resizeWith (add : Hashtable K V → K → V → Option (Hashtable K V)) (ht : Hashtable K V)
    (size : Nat) : Option (Hashtable K V) :=
  (List.range ht.size).foldlM
    (fun next i => if (ht.table i).isUsed then add next (ht.table i).key (ht.table i).value
      else some next)
    { ht with table := fun _ => clearedNode, size := size, count := 0 }

/-- `hashtable_add` and `hashtable_resize` call each other; `depth` bounds the nested calls. -/
def addAt : Nat → Hashtable K V → K → V → Option (Hashtable K V)
  | 0, _, _, _ => none
  | depth + 1, ht, key, value => (ht.findSlot key).bind fun node =>
    let stored := ht.store node key value
    if stored.size / 2 ≤ stored.count then resizeWith (addAt depth) stored (stored.size * 2)
    else some stored

/-- The adds inside a resize never resize again, so two levels are enough. -/
def add (ht : Hashtable K V) (key : K) (value : V) : Option (Hashtable K V) := addAt 2 ht key value

def resize (ht : Hashtable K V) (size : Nat) : Option (Hashtable K V) := resizeWith (addAt 1) ht size

def get (ht : Hashtable K V) (key : K) : Option V :=
  (ht.getNode key false).map fun node =>
    if (ht.table node).isUsed then (ht.table node).value else default

def has [DecidableEq V] (ht : Hashtable K V) (key : K) : Option Bool :=
  (ht.get key).map fun value => decide (value ≠ default)

/-- `hashtable_remove` leaves a tombstone in the slot. -/
def discard (ht : Hashtable K V) (i : Nat) : Hashtable K V :=
  { ht with
    table := Function.update ht.table i ⟨default, default, false, true⟩
    count := ht.count - 1 }

def remove (ht : Hashtable K V) (key : K) : Option (Hashtable K V) :=
  (ht.getNode key false).map fun node =>
    if (ht.table node).isUsed then ht.discard node else ht

/-- These calls make up the history of one table. -/
inductive Call (K V : Type) where
  | add (key : K) (value : V)
  | remove (key : K)
  | get (key : K)
  | has (key : K)

/-- A call that never returns ends the run. -/
def step [DecidableEq V] (ht : Hashtable K V) : Call K V → Option (Hashtable K V)
  | .add key value => ht.add key value
  | .remove key => ht.remove key
  | .get key => (ht.get key).map fun _ => ht
  | .has key => (ht.has key).map fun _ => ht

/-- A table in memory has fewer slots than an `int` can count. -/
structure Iterator (K V : Type) where
  i : Nat
  key : K
  value : V

/-- `HASHTABLE_ITERATOR_INIT` -/
def iteratorInit : Iterator K V := ⟨0, default, default⟩

/-- This is the loop of `hashtable_iterate`, which ends after the last slot. -/
def nextUsed (ht : Hashtable K V) : Nat → Nat → Nat
  | 0, i => i
  | left + 1, i => if (ht.table i).isUsed then i else ht.nextUsed left (i + 1)

/-- The result is `hashtable_iterate`'s and the iterator after it. -/
def iterate (ht : Hashtable K V) (iter : Iterator K V) : Bool × Iterator K V :=
  if ht.size ≤ iter.i then (false, iter)
  else
    let i := ht.nextUsed (ht.size - iter.i) iter.i
    if ht.size ≤ i then (false, { iter with i := i + 1 })
    else (true, ⟨i + 1, (ht.table i).key, (ht.table i).value⟩)

/-- `while (hashtable_iterate(ht, &iter))` with a body, cut off after `fuel` turns. The result is the pairs that the
body is given and the table that it leaves. -/
def iterateAll (body : Hashtable K V → K → V → Option (Hashtable K V)) :
    Nat → Hashtable K V → Iterator K V → Option (List (K × V) × Hashtable K V)
  | 0, _, _ => none
  | fuel + 1, ht, iter =>
    match ht.iterate iter with
    | (false, _) => some ([], ht)
    | (true, iter) =>
      (body ht iter.key iter.value).bind fun next =>
        (iterateAll body fuel next iter).map fun (pairs, last) => ((iter.key, iter.value) :: pairs, last)

/-- What `task_free_fdnum` does to the table of the descriptors of a task -/
def taskFreeFdnum [DecidableEq V] (ht : Hashtable K V) (fdnum : K) : Option (Hashtable K V) :=
  (ht.get fdnum).bind fun fd => if fd = default then some ht else ht.remove fdnum

end Hashtable

/-- The key of `hashtable_create_uint` is the pointer value itself. -/
def hashUint (size : Nat) (key : BitVec 32) : Nat := key.toNat % size

def hashtableKeyCompareUint (first second : BitVec 32) : Int := (first - second).toInt

/-- The key of `hashtable_create_string` is a string without its final zero byte. -/
structure CString where
  bytes : List UInt8
  terminated : 0 ∉ bytes
  deriving DecidableEq

def hashString (size : Nat) (key : CString) : Nat :=
  (key.bytes.foldl (fun h byte => (h + byte.toNat) % 2 ^ 32) 0) % size

/-- The end of a list is the zero byte that ends the string. -/
def strcmp : List UInt8 → List UInt8 → Int
  | [], [] => 0
  | [], second :: _ => 0 - second.toNat
  | first :: _, [] => first.toNat - 0
  | first :: firsts, second :: seconds =>
    if first = second then strcmp firsts seconds else first.toNat - second.toNat

def hashtableKeyCompareString (first second : CString) : Int := strcmp first.bytes second.bytes

theorem hashtableKeyCompareUint_eq_zero (first second : BitVec 32) :
    hashtableKeyCompareUint first second = 0 ↔ first = second := by
  rw [hashtableKeyCompareUint, ← BitVec.toInt_zero (w := 32), BitVec.toInt_inj]
  bv_omega

theorem strcmp_eq_zero (first second : List UInt8) (firstTerminated : 0 ∉ first)
    (secondTerminated : 0 ∉ second) : strcmp first second = 0 ↔ first = second := by
  induction first generalizing second with
  | nil =>
    cases second with
    | nil => simp [strcmp]
    | cons byte rest =>
      have nonzero : byte.toNat ≠ 0 := by
        intro zero
        exact secondTerminated (by simp [UInt8.toNat_inj.mp (zero.trans UInt8.toNat_zero.symm)])
      simp only [strcmp, reduceCtorEq, iff_false]
      omega
  | cons byte rest ih =>
    cases second with
    | nil =>
      have nonzero : byte.toNat ≠ 0 := by
        intro zero
        exact firstTerminated (by simp [UInt8.toNat_inj.mp (zero.trans UInt8.toNat_zero.symm)])
      simp only [strcmp, reduceCtorEq, iff_false]
      omega
    | cons other others =>
      simp only [List.mem_cons, not_or] at firstTerminated secondTerminated
      by_cases same : byte = other
      · subst other
        simp [strcmp, ih others firstTerminated.2 secondTerminated.2]
      · have different : byte.toNat ≠ other.toNat := fun equal =>
          same (UInt8.toNat_inj.mp equal)
        simp only [strcmp, same, if_false, List.cons.injEq, false_and, iff_false]
        omega

/-- These are the keys of `hashtable_create_uint`. -/
def uintKeys : KeyClass (BitVec 32) where
  hash := hashUint
  compare := hashtableKeyCompareUint
  hash_lt _ key positive := Nat.mod_lt key.toNat positive
  compare_eq_zero := hashtableKeyCompareUint_eq_zero

/-- These are the keys of `hashtable_create_string`. -/
def stringKeys : KeyClass CString where
  hash := hashString
  compare := hashtableKeyCompareString
  hash_lt _ _ positive := Nat.mod_lt _ positive
  compare_eq_zero first second := by
    rw [hashtableKeyCompareString, strcmp_eq_zero _ _ first.terminated second.terminated]
    cases first
    cases second
    simp

instance : Inhabited CString := ⟨⟨[], by simp⟩⟩

end Phabos
