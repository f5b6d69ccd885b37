import BipartiteBatch.Node
import Std.Data.HashMap

/-!
# Indexings

An indexing numbers the distinct nodes of a sequence from zero, in the order in which they are first
seen. It keeps the nodes in that order and, beside them, the position of each; that the two say the same
is part of the type (`position_eq_some_iff`), so no node can stand at two places.

* `insert` : the indexing with a node added, and the node's index in it;
* `clear` : the indexing with all nodes removed;
* `ofList`, `ofLevels` : one indexing of a sequence, one per level of a subgraph;
* `get?`, `contains`, `size`, `isEmpty`, `nodes` : what can be read.
-/

namespace BipartiteBatch

/-- Distinct nodes in first-seen order, with the position of each. -/
structure Indexing where
  position : Std.HashMap NodeId Nat := {}
  order : Array NodeId := #[]
  position_eq_some_iff : ∀ (node : NodeId) (i : Nat),
    position[node]? = some i ↔ order[i]? = some node := by simp

namespace Indexing

def empty : Indexing := {}

def size (ix : Indexing) : Nat := ix.order.size

def nodes (ix : Indexing) : List NodeId := ix.order.toList

def get? (ix : Indexing) (node : NodeId) : Option Nat := ix.position[node]?

def contains (ix : Indexing) (node : NodeId) : Bool := ix.position.contains node

def isEmpty (ix : Indexing) : Bool := ix.order.isEmpty

/-- Positions stay those of the nodes in order where a new node is put at the end. -/
theorem getElem?_insert_size_iff {position : Std.HashMap NodeId Nat} {order : Array NodeId}
    (old : ∀ (node : NodeId) (i : Nat), position[node]? = some i ↔ order[i]? = some node) {node : NodeId}
    (h : position[node]? = none) (other : NodeId) (i : Nat) :
    (position.insert node order.size)[other]? = some i ↔ (order.push node)[i]? = some other := by
  rw [Std.HashMap.getElem?_insert, Array.getElem?_push]
  by_cases hn : node = other
  · subst hn
    have free := old node i
    rw [h] at free
    by_cases hi : i = order.size
    · simp [hi]
    · simp only [beq_self_eq_true, if_true, if_neg hi, ← free]
      simpa using Ne.symm hi
  · rw [if_neg (by simpa using hn), old]
    by_cases hi : i = order.size
    · simp [hi, hn]
    · rw [if_neg hi]

/-- Give a node without an index the next free one. -/
def push (ix : Indexing) (node : NodeId) (h : ix.get? node = none) : Indexing where
  position := ix.position.insert node ix.size
  order := ix.order.push node
  position_eq_some_iff := getElem?_insert_size_iff ix.position_eq_some_iff h

theorem lt_size_of_get? {ix : Indexing} {node : NodeId} {i : Nat} (h : ix.get? node = some i) :
    i < ix.size :=
  (Array.getElem?_eq_some_iff.1 ((ix.position_eq_some_iff node i).1 h)).1

/-- No index reaches the number of nodes, so a node that has the next free one is new. -/
theorem get?_eq_none_of_getD {ix : Indexing} {node : NodeId}
    (h : (ix.get? node).getD ix.size = ix.size) : ix.get? node = none := by
  cases hget : ix.get? node with
  | none => rfl
  | some i =>
    rw [hget, Option.getD_some] at h
    exact absurd h (Nat.ne_of_lt (lt_size_of_get? hget))

/-- Add a node, and give its index: the old one, or the next free one. Where the index is the free one, the
node takes the place. -/
def insert (ix : Indexing) (node : NodeId) : Indexing × Nat :=
  let next := ix.size
  let index := (ix.get? node).getD next
  (if h : index = next then ix.push node (get?_eq_none_of_getD h) else ix, index)

theorem insert_of_get?_eq_some {ix : Indexing} {node : NodeId} {i : Nat} (h : ix.get? node = some i) :
    ix.insert node = (ix, i) := by
  have hne : i ≠ ix.size := Nat.ne_of_lt (lt_size_of_get? h)
  unfold insert
  simp [h, hne]

theorem insert_of_get?_eq_none {ix : Indexing} {node : NodeId} (h : ix.get? node = none) :
    ix.insert node = (ix.push node h, ix.size) := by
  unfold insert
  simp [h]

def clear (ix : Indexing) : Indexing where
  order := ix.order.shrink 0
  position_eq_some_iff := by simp [Array.shrink_eq_take]

def ofList (nodes : List NodeId) : Indexing :=
  nodes.foldl (fun ix node => (ix.insert node).1) empty

def ofLevels (levels : List (List NodeId)) : List Indexing := levels.map ofList

/-- The same nodes at the same positions. -/
protected def beq (a b : Indexing) : Bool :=
  a.order == b.order && a.position.size == b.position.size
    && a.position.toList.all fun (node, i) => b.get? node == some i

instance : BEq Indexing := ⟨Indexing.beq⟩

end Indexing

end BipartiteBatch
