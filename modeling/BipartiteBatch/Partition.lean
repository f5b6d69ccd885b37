import BipartiteBatch.Event

/-!
# Partitions of nodes

A list of nodes falls into the users, the items and the nodes of no group, each in the order of the
list. Nodes of no group are left out of batches and reported. Nodes are sorted one after the other onto lists
of users and items, which can be those of the nodes before them, so that a batch can be sorted in parts.

* `Sorting` : the lists, `Sorting.add` : one more node, `Sorting.extend` : the nodes of one more list;
* `Partition.ofList` : what a list falls into, `Partition.ofList_eq`, `Partition.nodes_ofList` : its parts;
* `Sorting.partition_extend`, `Partition.ofList_append` : sorting in parts and at once.
-/

namespace BipartiteBatch

structure Partition where
  users : List NodeId := []
  items : List NodeId := []
  unknown : List NodeId := []
deriving DecidableEq, Repr

/-- Lists that nodes are sorted onto: the users and the items so far, and the nodes of no group among those that
were sorted last. -/
structure Sorting where
  users : Array NodeId := #[]
  items : Array NodeId := #[]
  unknown : Array NodeId := #[]
deriving DecidableEq, Repr

namespace Sorting

def add (tags : GroupTags) (s : Sorting) (node : NodeId) : Sorting :=
  match tags.groupOf? node with
  | some .user => { s with users := s.users.push node }
  | some .item => { s with items := s.items.push node }
  | none => { s with unknown := s.unknown.push node }

def extend (tags : GroupTags) (s : Sorting) (nodes : List NodeId) : Sorting :=
  nodes.foldl (add tags) { s with unknown := #[] }

def partition (s : Sorting) : Partition := ⟨s.users.toList, s.items.toList, s.unknown.toList⟩

end Sorting

namespace Partition

def ofList (tags : GroupTags) (nodes : List NodeId) : Partition :=
  (Sorting.extend tags {} nodes).partition

def nodes (p : Partition) : Group → List NodeId
  | .user => p.users
  | .item => p.items

def append (p q : Partition) : Partition :=
  ⟨p.users ++ q.users, p.items ++ q.items, p.unknown ++ q.unknown⟩

def events (p : Partition) (tags : GroupTags) : List Event :=
  p.unknown.map fun node => .unknownNode node tags

end Partition

/-- Each list gets the nodes of its group, in their order. -/
theorem Sorting.partition_foldl_add (tags : GroupTags) (s : Sorting) (nodes : List NodeId) :
    (nodes.foldl (add tags) s).partition = s.partition.append
      { users := nodes.filter fun node => tags.groupOf? node = some .user
        items := nodes.filter fun node => tags.groupOf? node = some .item
        unknown := nodes.filter fun node => tags.groupOf? node = none } := by
  induction nodes generalizing s with
  | nil => simp [partition, Partition.append]
  | cons node nodes ih =>
    rw [List.foldl_cons, ih]
    cases hgroup : tags.groupOf? node with
    | none => simp [add, hgroup, partition, Partition.append]
    | some group => cases group <;> simp [add, hgroup, partition, Partition.append]

namespace Partition

theorem ofList_eq (tags : GroupTags) (nodes : List NodeId) :
    ofList tags nodes =
      { users := nodes.filter fun node => tags.groupOf? node = some .user
        items := nodes.filter fun node => tags.groupOf? node = some .item
        unknown := nodes.filter fun node => tags.groupOf? node = none } :=
  Sorting.partition_foldl_add tags {} nodes

theorem nodes_ofList (tags : GroupTags) (nodes : List NodeId) (group : Group) :
    (ofList tags nodes).nodes group = nodes.filter fun node => tags.groupOf? node = some group := by
  rw [ofList_eq]
  cases group <;> rfl

theorem ofList_append (tags : GroupTags) (xs ys : List NodeId) :
    ofList tags (xs ++ ys) = (ofList tags xs).append (ofList tags ys) := by
  simp [ofList_eq, append]

end Partition

/-- Sorting goes on from the users and items so far as if there were none. -/
theorem Sorting.partition_extend (tags : GroupTags) (s : Sorting) (nodes : List NodeId) :
    (s.extend tags nodes).partition
      = { s.partition with unknown := [] }.append (.ofList tags nodes) := by
  rw [extend, partition_foldl_add, Partition.ofList_eq]
  rfl

end BipartiteBatch
