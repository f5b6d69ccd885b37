import BipartiteBatch.Indexing

/-!
# The flat index

One index space over both groups: users take `[0, |users|)` and items the range of `|items|` after it.

* `range` : the indices of a group;
* `index` : the index of a node, or why it has none.
-/

namespace BipartiteBatch

/-- A user indexing and an item indexing, side by side. -/
structure FlatIndex where
  tags : GroupTags
  users : Indexing
  items : Indexing

namespace FlatIndex

def size (flat : FlatIndex) : Nat := flat.users.size + flat.items.size

/-- The indices of a group, from the first to the one after the last. -/
def range (flat : FlatIndex) : Group → Nat × Nat
  | .user => (0, flat.users.size)
  | .item => (flat.users.size, flat.size)

def indexing (flat : FlatIndex) : Group → Indexing
  | .user => flat.users
  | .item => flat.items

/-- The index of a node: its index in its group, moved to the group's range. -/
def index (flat : FlatIndex) (node : NodeId) : Except NodeError Nat :=
  match flat.tags.groupOf node with
  | .error e => .error e
  | .ok group =>
    match (flat.indexing group).get? node with
    | some i => .ok ((flat.range group).1 + i)
    | none => .error (.notIndexed node group)

end FlatIndex

end BipartiteBatch
