/-!
# Nodes, tags and groups

A node of the bipartite graph is one 64-bit word: a namespace tag in the upper 16 bits and a value
in the lower 48. Two configured tags select the user group and the item group; any other tag is
unknown.

* `NodeId.tag`, `NodeId.value` : the two fields of a node;
* `NodeId.make` : the node with given fields, or the field that does not fit;
* `GroupTags.groupOf?` : the group of a node, the user tag being looked at first;
* `NodeError` : why a node could not be made, grouped or indexed.
-/

namespace BipartiteBatch

/-- A node: tag above, value below. -/
abbrev NodeId := UInt64

abbrev Tag := UInt16

/-- One of the two sides of the bipartite graph. -/
inductive Group where
  | user
  | item
deriving DecidableEq, Repr

/-- The tags that select the two groups. -/
structure GroupTags where
  user : Tag := 0
  item : Tag := 1
deriving DecidableEq, Repr

inductive NodeError where
  | tagTooLarge (tag : UInt64)
  | valueTooLarge (value : UInt64)
  | notIndexed (node : NodeId) (group : Group)
  | unknownGroup (node : NodeId) (tags : GroupTags)
deriving DecidableEq, Repr

namespace NodeId

def maxValue : UInt64 := 0xFFFFFFFFFFFF

/-- The tag of a node, its upper 16 bits. -/
def tag (node : NodeId) : Tag := (node >>> 48).toUInt16

/-- The value of a node, its lower 48 bits. -/
def value (node : NodeId) : UInt64 := node &&& maxValue

/-- The node with the given tag and value; the tag is checked first. -/
def make (tag value : UInt64) : Except NodeError NodeId :=
  if 0xFFFF < tag then .error (.tagTooLarge tag)
  else if maxValue < value then .error (.valueTooLarge value)
  else .ok (tag <<< 48 ||| value)

end NodeId

namespace Group

def name : Group → String
  | user => "user"
  | item => "item"

def all : List Group := [user, item]

end Group

namespace GroupTags

def tagOf (tags : GroupTags) : Group → Tag
  | .user => tags.user
  | .item => tags.item

/-- The group of a node. If both groups had the same tag, its nodes would be users. -/
def groupOf? (tags : GroupTags) (node : NodeId) : Option Group :=
  if node.tag = tags.user then some .user
  else if node.tag = tags.item then some .item
  else none

/-- The group of a node whose tag must be a configured one. -/
def groupOf (tags : GroupTags) (node : NodeId) : Except NodeError Group :=
  match tags.groupOf? node with
  | some group => .ok group
  | none => .error (.unknownGroup node tags)

end GroupTags

def NodeError.message : NodeError → String
  | tagTooLarge tag => s!"Invalid namespace ID: {tag}"
  | valueTooLarge value => s!"Invalid node value: {value}"
  | notIndexed node group =>
    s!"Node {node} (ns_id {node.tag}) is missing from the {group.name} indexing"
  | unknownGroup node tags =>
    s!"Invalid node: {node} with ns_id: {node.tag}, expect {tags.user} or {tags.item}"

end BipartiteBatch
